import Oscillatord.Library.ThreadScopes

/-!
# The life of main

`main` brings up the parts of the daemon one after the other, goes round its loop, and takes them
down again. Each call of the start may fail, and then `main` either ends the process with `error` or
returns; the descriptor of the clock has a cleanup and is closed whenever `main` returns. Meanwhile
four threads run on what `main` has made: the thread of the phasemeter reads the descriptor of the
clock, those of the receiver and of the pulses use the session, a local variable of `main`, and that
of the monitoring shows a string of the configuration. The thread of the receiver also takes down
the object of the receiver, once it was told to stop.

A life is any outcome of the calls, with the steps of the threads anywhere in between. What is
touched after it was taken down, before `main` returns, is the object of the receiver alone, and it
is in every life that comes to the end of the loop: `gnss_stop` reads it after the join
(`mainLife_law`). The return itself touches nothing else exactly when it is one before the receiver
is started, or one at the end with neither the clock open, since it is closed there a second time,
nor a thread of the pulses, which is not waited for.
-/

namespace Oscillatord

open StepRun Handles ThreadScopes

/-- What `main` makes: `frame` stands for its local variables, `gnss` for the object of the
receiver. -/
inductive MainPart
  | frame
  | config
  | monitoring
  | oscillator
  | clock
  | gnss
  | od
  | phasemeter
  deriving Repr, DecidableEq

/-- The threads of the daemon, but for those that save and the one that accepts RTCM clients. -/
inductive MainThread
  | monitoring
  | gnss
  | phasemeter
  | pps
  deriving Repr, DecidableEq

/-- What a thread was given. -/
def MainThread.parts : MainThread → List MainPart
  | .monitoring => [.monitoring, .config]
  | .gnss => [.frame, .monitoring, .gnss]
  | .phasemeter => [.phasemeter, .clock]
  | .pps => [.frame]

/-- A thread may use this part. -/
def MainThread.Uses (t : MainThread) (h : MainPart) : Prop := h ∈ t.parts

/-- A command of `main`. -/
abbrev MainCmd := Cmd MainPart MainThread

/-- How `main` ends if it does not come to the end of its loop: by `error`, or by a `return`. -/
inductive MainEnd
  | exited
  | returned
  deriving Repr, DecidableEq

/-- The outcomes of the calls of `main`, and the flag `loop` where it is looked at. -/
structure MainCalls where
  configInit : Bool
  disciplining : Bool
  monitoring : Bool
  configDiscoverDevices : Bool
  monitoringInit : Bool
  oscillatorFactoryNew : Bool
  openClock : Bool
  gnssInit : Bool
  readDiscipliningParameters : Bool
  odNewFromConfig : Bool
  phasemeterInit : Bool
  loopBeforeClock : Bool
  gnssSetPtpClockTime : Bool
  loopBeforeJump : Bool
  applyPhaseOffset : Bool
  gnssSetPtpClockTimeAgain : Bool
  loopBeforePps : Bool
  /-- There is a path of the pulses, and `ntpshm_link_activate` starts their thread. -/
  ppsActivated : Bool
  /-- What the rounds of the loop use. -/
  rounds : List MainPart
  /-- A round ends in `error`. -/
  roundFails : Bool

/-- Commands, and the end if it comes after them. -/
abbrev LifeStage := List MainCmd × Option MainEnd

def useOf (parts : List MainPart) : List MainCmd := parts.map fun h => .op (.use h)

/-- A call that ends `main` if it fails. -/
def mainCall (succeeds : Bool) (given : List MainPart) (made : List MainCmd) (failure : MainEnd) :
    LifeStage :=
  (useOf given ++ if succeeds then made else [], if succeeds then none else some failure)

/-- `main` up to the object of `gnss_init`. -/
def mainOpening (io : MainCalls) : List LifeStage :=
  [([.op (.acquire .frame)], none),
    mainCall io.configInit [] [.op (.acquire .config)] .exited,
    mainCall (io.disciplining || io.monitoring) [.config] [] .returned,
    mainCall io.configDiscoverDevices [.config] [] .exited] ++
  (if io.monitoring then
    [mainCall io.monitoringInit [.config] [.op (.acquire .monitoring), .spawn .monitoring]
      .returned]
  else []) ++
  [mainCall io.oscillatorFactoryNew [.config] [.op (.acquire .oscillator)] .exited] ++
  (if io.monitoring then [(useOf [.oscillator, .monitoring], none)] else []) ++
  [(if io.openClock then [.op (.acquire .clock)] else [],
      if !io.openClock && io.disciplining then some .exited else none),
    mainCall io.gnssInit [.frame, .config] [.op (.acquire .gnss), .spawn .gnss] .exited] ++
  (if io.monitoring then [(useOf [.monitoring, .gnss], none)] else [])

/-- `main` from there to the end of its loop. -/
def mainRunning (io : MainCalls) : List LifeStage :=
  (if io.disciplining then
    [mainCall io.readDiscipliningParameters [.frame] [] .returned,
      mainCall io.odNewFromConfig [.frame, .config] [.op (.acquire .od)] .exited,
      mainCall io.phasemeterInit [] [.op (.acquire .phasemeter), .spawn .phasemeter] .returned] ++
    (if io.loopBeforeClock then [mainCall io.gnssSetPtpClockTime [.gnss, .clock] [] .returned]
    else []) ++
    (if io.loopBeforeJump then
      [mainCall io.applyPhaseOffset [.phasemeter, .clock] [] .exited,
        mainCall io.gnssSetPtpClockTimeAgain [.gnss, .clock] [] .returned]
    else [])
  else []) ++
  (if io.loopBeforePps then
    [(useOf [.clock, .frame] ++ if io.ppsActivated then [.spawn .pps] else [], none)]
  else []) ++
  [mainCall (!io.roundFails) io.rounds [] .exited]

/-- The commands of the stages up to the first that ends `main`, and this end. -/
def mainUntil : List LifeStage → LifeStage
  | [] => ([], none)
  | (commands, some e) :: _ => (commands, some e)
  | (commands, none) :: rest => (commands ++ (mainUntil rest).1, (mainUntil rest).2)

/-- `main` up to the end of its loop. -/
def mainStart (io : MainCalls) : LifeStage := mainUntil (mainOpening io ++ mainRunning io)

/-- `fd_clock` is not `-1`. -/
def ClockOpened (commands : List MainCmd) : Prop := .op (.acquire .clock) ∈ commands

instance (commands : List MainCmd) : Decidable (ClockOpened commands) :=
  inferInstanceAs (Decidable (_ ∈ _))

/-- `gnss_stop`: the thread that is told to stop takes down the object, at the latest where it is
joined, and then the object is read again. -/
def mainGnssStop : List MainCmd :=
  [.op (.use .gnss), .join .gnss, .op (.release .gnss), .op (.use .gnss)]

/-- `main` after its loop. -/
def mainStop (io : MainCalls) (commands : List MainCmd) : List MainCmd :=
  useOf [.clock, .frame] ++ mainGnssStop ++
  (if io.disciplining then
    [.join .phasemeter, .op (.release .phasemeter), .op (.use .od), .op (.release .od)]
  else []) ++
  (if io.monitoring then [.join .monitoring, .op (.release .monitoring)] else []) ++
  (if ClockOpened commands then [.op (.release .clock)] else []) ++
  [.op (.release .oscillator), .op (.release .config)]

/-- The return of `main`: the cleanup of `fd_clock`, and the end of its local variables. -/
def mainReturn (commands : List MainCmd) : List MainCmd :=
  (if ClockOpened commands then [.op (.release .clock)] else []) ++ [.op (.release .frame)]

/-- `main` before it returns. -/
def mainUntilReturn (io : MainCalls) : List MainCmd :=
  (mainStart io).1 ++ if (mainStart io).2 = none then mainStop io (mainStart io).1 else []

/-- `main`. -/
def mainCommands (io : MainCalls) : List MainCmd :=
  mainUntilReturn io ++ if (mainStart io).2 = some .exited then [] else mainReturn (mainStart io).1

/-! ### The stages -/

variable {io : MainCalls} {stages more : List LifeStage} {c : MainCmd}

theorem exists_stage_of_mem (hc : c ∈ (mainUntil stages).1) : ∃ stage ∈ stages, c ∈ stage.1 := by
  induction stages with
  | nil => cases hc
  | cons stage rest ih =>
    obtain ⟨commands, _ | e⟩ := stage
    · rcases List.mem_append.mp hc with hc | hc
      · exact ⟨_, List.mem_cons_self, hc⟩
      · obtain ⟨stage, hstage, hc⟩ := ih hc
        exact ⟨stage, List.mem_cons_of_mem _ hstage, hc⟩
    · exact ⟨_, List.mem_cons_self, hc⟩

/-- The stages that were gone through. -/
theorem mem_mainUntil_of_none (hend : (mainUntil stages).2 = none) {stage : LifeStage}
    (hstage : stage ∈ stages) : stage.2 = none ∧ ∀ c ∈ stage.1, c ∈ (mainUntil stages).1 := by
  induction stages with
  | nil => cases hstage
  | cons first rest ih =>
    obtain ⟨commands, _ | e⟩ := first
    · rcases List.mem_cons.mp hstage with rfl | hstage
      · exact ⟨rfl, fun c hc => List.mem_append_left _ hc⟩
      · obtain ⟨hnone, hmem⟩ := ih hend hstage
        exact ⟨hnone, fun c hc => List.mem_append_right _ (hmem c hc)⟩
    · cases hend

theorem mainUntil_append :
    mainUntil (stages ++ more) = if (mainUntil stages).2 = none
      then ((mainUntil stages).1 ++ (mainUntil more).1, (mainUntil more).2)
      else mainUntil stages := by
  induction stages with
  | nil => rfl
  | cons stage rest ih =>
    obtain ⟨commands, _ | e⟩ := stage
    · rw [List.cons_append, mainUntil, mainUntil, ih]
      split_ifs <;> simp
    · rfl

/-! ### What a start does -/

/-- The start may do this: it makes the parts of its mode, and takes nothing down. -/
def MainAllowed (io : MainCalls) : MainCmd → Prop
  | .op (.acquire .monitoring) | .spawn .monitoring => io.monitoring = true
  | .op (.acquire .od) | .op (.acquire .phasemeter) | .spawn .phasemeter =>
    io.disciplining = true
  | .op (.release _) | .join _ => False
  | _ => True

theorem forall_mem_ite_nil {α : Type*} {b : Bool} {as : List α} {P : α → Prop} :
    (∀ a ∈ if b then as else [], P a) ↔ (b = true → ∀ a ∈ as, P a) := by
  cases b <;> simp

/-- What holds of every use is a matter of what a call makes. -/
theorem forall_mem_mainCall_iff {P : MainCmd → Prop} (huse : ∀ h, P (.op (.use h)))
    {succeeds : Bool} {given : List MainPart} {made : List MainCmd} {failure : MainEnd} :
    (∀ c ∈ (mainCall succeeds given made failure).1, P c) ↔
      (succeeds = true → ∀ c ∈ made, P c) := by
  rw [mainCall, List.forall_mem_append, forall_mem_ite_nil, useOf, List.forall_mem_map]
  exact and_iff_right fun h _ => huse h

theorem mainAllowed_of_mem (hc : c ∈ (mainStart io).1) : MainAllowed io c := by
  have huse : ∀ h, MainAllowed io (.op (.use h)) := fun _ => trivial
  have hall : ∀ stage ∈ mainOpening io ++ mainRunning io, ∀ c ∈ stage.1, MainAllowed io c := by
    simp only [mainOpening, mainRunning, List.forall_mem_append, forall_mem_ite_nil,
      List.forall_mem_cons, forall_mem_mainCall_iff huse]
    simp +contextual [MainAllowed, useOf]
  obtain ⟨stage, hstage, hmem⟩ := exists_stage_of_mem hc
  exact hall stage hstage c hmem

/-- The threads started before the receiver is. -/
def SpawnedFirst : MainCmd → Prop
  | .spawn t => t = .monitoring ∨ t = .gnss
  | _ => True

theorem spawnedFirst_of_mem (hc : c ∈ (mainUntil (mainOpening io)).1) : SpawnedFirst c := by
  have huse : ∀ h, SpawnedFirst (.op (.use h)) := fun _ => trivial
  have hall : ∀ stage ∈ mainOpening io, ∀ c ∈ stage.1, SpawnedFirst c := by
    simp only [mainOpening, List.forall_mem_append, forall_mem_ite_nil, List.forall_mem_cons,
      forall_mem_mainCall_iff huse]
    simp [SpawnedFirst, useOf]
  obtain ⟨stage, hstage, hmem⟩ := exists_stage_of_mem hc
  exact hall stage hstage c hmem

/-- The receiver is started before the threads that come after it. -/
theorem spawn_gnss_of_mem {t : MainThread} (ht : t ≠ .monitoring)
    (hspawn : .spawn t ∈ (mainStart io).1) : .spawn .gnss ∈ (mainStart io).1 := by
  have hgnss : mainCall io.gnssInit [.frame, .config] [.op (.acquire .gnss), .spawn .gnss] .exited
      ∈ mainOpening io := by
    simp [mainOpening]
  rw [mainStart, mainUntil_append] at hspawn ⊢
  split_ifs at hspawn ⊢ with hend
  · obtain ⟨hnone, hmem⟩ := mem_mainUntil_of_none hend hgnss
    refine List.mem_append_left _ (hmem _ ?_)
    cases hinit : io.gnssInit with
    | true => simp [mainCall]
    | false =>
      rw [mainCall, hinit] at hnone
      cases hnone
  · obtain rfl := (spawnedFirst_of_mem hspawn).resolve_left ht
    exact hspawn

/-- What a start gives: nothing is taken down, and the threads run that were started. -/
theorem scoped_mainStart (watched : MainPart → Prop) (io : MainCalls) :
    Scoped watched MainThread.Uses (.fresh _ _) (mainStart io).1 ∧
      (runs (.fresh _ _) (mainStart io).1).Unreleased ∧
      ∀ t, (runs (.fresh _ _) (mainStart io).1).running t = true ↔
        .spawn t ∈ (mainStart io).1 := by
  have hkeeps : Keeps (mainStart io).1 :=
    ⟨fun h hmem => mainAllowed_of_mem hmem, fun t hmem => mainAllowed_of_mem hmem⟩
  obtain ⟨hscoped, hunreleased, hrunning⟩ := scoped_of_keeps World.unreleased_fresh hkeeps
  refine ⟨hscoped, hunreleased, fun t => (hrunning t).trans ?_⟩
  exact or_iff_right Bool.false_ne_true

/-- What comes after the start is scoped when it winds up what the start has made. -/
theorem scoped_after_mainStart_iff {watched : MainPart → Prop} {commands : List MainCmd}
    (hends : ∀ c ∈ commands, c.Ends) :
    Scoped watched MainThread.Uses (.fresh _ _) ((mainStart io).1 ++ commands) ↔
      Winds watched MainThread.Uses (fun t => .spawn t ∈ (mainStart io).1) [] [] commands := by
  obtain ⟨hscoped, hunreleased, hrunning⟩ := scoped_mainStart watched io
  rw [scoped_append, and_iff_right hscoped]
  exact scoped_iff_winds hunreleased.quiet (by simpa using hrunning)
    (fun h => iff_of_false (hunreleased h) List.not_mem_nil) hends

/-! ### What the end takes down -/

theorem forall_mainThread {P : MainThread → Prop} :
    (∀ t, P t) ↔ P .monitoring ∧ P .gnss ∧ P .phasemeter ∧ P .pps := by
  refine ⟨fun h => ⟨h _, h _, h _, h _⟩, fun h t => ?_⟩
  obtain ⟨hm, hg, hp, hpps⟩ := h
  cases t <;> assumption

theorem ends_mainStop (commands : List MainCmd) : ∀ c ∈ mainStop io commands, c.Ends := by
  simp only [mainStop, mainGnssStop, useOf, List.forall_mem_append, forall_mem_ite_nil]
  split_ifs <;> simp [Cmd.Ends]

theorem ends_mainReturn (commands : List MainCmd) : ∀ c ∈ mainReturn commands, c.Ends := by
  rw [mainReturn]
  split_ifs <;> simp [Cmd.Ends]

section Winding

variable {started : MainThread → Prop} {commands : List MainCmd}

/-- A thread that runs has the mode it is for. -/
theorem mode_or_not_started {b : Bool} {p : Prop} (h : p → b = true) :
    b = true ∨ b = false ∧ ¬ p := by
  cases b with
  | true => exact .inl rfl
  | false => exact .inr ⟨rfl, fun hp => Bool.false_ne_true (h hp)⟩

/-- Each part is taken down after the threads that were given it, and none is touched then but the
object of the receiver. -/
theorem winds_mainStop_iff {watched : MainPart → Prop}
    (hmonitoring : started .monitoring → io.monitoring = true)
    (hphasemeter : started .phasemeter → io.disciplining = true) :
    Winds watched MainThread.Uses started [] [] (mainStop io commands) ↔ ¬ watched .gnss := by
  rcases mode_or_not_started hmonitoring with hm | ⟨hm, hnotm⟩ <;>
    rcases mode_or_not_started hphasemeter with hd | ⟨hd, hnotd⟩ <;>
    clear hmonitoring hphasemeter <;> by_cases hclock : ClockOpened commands <;>
    simp [mainStop, mainGnssStop, useOf, Winds, forall_mainThread, MainThread.Uses,
      MainThread.parts, *]

/-- The clock is closed again, and the thread of the pulses is not waited for. -/
theorem winds_mainStop_mainReturn_iff (hmonitoring : started .monitoring → io.monitoring = true)
    (hphasemeter : started .phasemeter → io.disciplining = true) :
    Winds (· ≠ .gnss) MainThread.Uses started [] [] (mainStop io commands ++ mainReturn commands) ↔
      ¬ ClockOpened commands ∧ ¬ started .pps := by
  rcases mode_or_not_started hmonitoring with hm | ⟨hm, hnotm⟩ <;>
    rcases mode_or_not_started hphasemeter with hd | ⟨hd, hnotd⟩ <;>
    clear hmonitoring hphasemeter <;> by_cases hclock : ClockOpened commands <;>
    simp [mainStop, mainGnssStop, mainReturn, useOf, Winds, forall_mainThread, MainThread.Uses,
      MainThread.parts, *]

/-- A return lets down the threads that were given the clock or the session. -/
theorem winds_mainReturn_iff :
    Winds (· ≠ .gnss) MainThread.Uses started [] [] (mainReturn commands) ↔
      (ClockOpened commands → ¬ started .phasemeter) ∧ ¬ started .gnss ∧ ¬ started .pps := by
  by_cases hclock : ClockOpened commands <;>
    simp [mainReturn, Winds, forall_mainThread, MainThread.Uses, MainThread.parts, hclock]

end Winding

/-- With disciplining, `main` goes on past the clock only if it is open. -/
theorem clockOpened_of_disciplining (hd : io.disciplining = true) (hend : (mainStart io).2 = none) :
    ClockOpened (mainStart io).1 := by
  have hstage : (if io.openClock then [.op (.acquire .clock)] else [],
      if !io.openClock && io.disciplining then some MainEnd.exited else none)
        ∈ mainOpening io ++ mainRunning io := by
    simp [mainOpening]
  obtain ⟨hnone, hmem⟩ := mem_mainUntil_of_none hend hstage
  cases hopen : io.openClock with
  | true => exact hmem _ (by simp [hopen])
  | false => simp [hopen, hd] at hnone

/-- All that the start has made is taken down. -/
theorem release_mem_of_acquire_mem {h : MainPart} (hmem : .op (.acquire h) ∈ (mainStart io).1) :
    .op (.release h) ∈ mainStop io (mainStart io).1 ++ mainReturn (mainStart io).1 := by
  have hallowed := mainAllowed_of_mem hmem
  cases h with
  | frame => simp [mainReturn]
  | clock =>
    have hclock : ClockOpened (mainStart io).1 := hmem
    simp [mainReturn, hclock]
  | monitoring | od | phasemeter =>
    simp only [MainAllowed] at hallowed
    simp [mainStop, hallowed]
  | gnss => simp [mainStop, mainGnssStop]
  | config | oscillator => simp [mainStop]

/-- **The life of main.** Whatever the calls return and wherever the threads take their steps,
nothing but the object of the receiver is touched after it was taken down, before `main` returns;
and the object is, in some run, exactly in the lives that come to the end of the loop. The return
touches nothing else either exactly when it comes before the receiver is started, or at the end
without a clock, which with disciplining there always is, and without a thread of the pulses. At the
end nothing is left of what was made. -/
theorem mainLife_law (io : MainCalls) :
    (∀ es, EachStep step (Law (· ≠ .gnss) MainThread.Uses) (mainUntilReturn io, .fresh _ _) es) ∧
      ((∀ es, EachStep step (Law (fun _ => True) MainThread.Uses)
          (mainUntilReturn io, .fresh _ _) es) ↔ (mainStart io).2 ≠ none) ∧
      ((∀ es, EachStep step (Law (· ≠ .gnss) MainThread.Uses) (mainCommands io, .fresh _ _) es) ↔
        match (mainStart io).2 with
        | some .exited => True
        | some .returned => .spawn .gnss ∉ (mainStart io).1
        | none => ¬ ClockOpened (mainStart io).1 ∧ .spawn .pps ∉ (mainStart io).1) ∧
      ((mainStart io).2 = none →
        (io.disciplining = true → ClockOpened (mainStart io).1) ∧
          ∀ h, (runs (.fresh _ _) (mainCommands io)).table h ≠ .held ()) := by
  have hmonitoring : .spawn .monitoring ∈ (mainStart io).1 → io.monitoring = true :=
    fun hmem => mainAllowed_of_mem hmem
  have hphasemeter : .spawn .phasemeter ∈ (mainStart io).1 → io.disciplining = true :=
    fun hmem => mainAllowed_of_mem hmem
  have hstop : ∀ c ∈ mainStop io (mainStart io).1, c.Ends := ends_mainStop _
  have hreturn := ends_mainReturn (mainStart io).1
  have hends := List.forall_mem_append.mpr ⟨hstop, hreturn⟩
  have hscoped := fun watched => (scoped_mainStart watched io).1
  rw [forall_eachStep_law_iff, forall_eachStep_law_iff, forall_eachStep_law_iff, mainCommands,
    mainUntilReturn]
  rcases hend : (mainStart io).2 with _ | (_ | _)
  · simp only [if_true, reduceCtorEq, if_false, List.append_assoc]
    refine ⟨?_, ?_, ?_, fun _ => ⟨fun hd => clockOpened_of_disciplining hd hend, fun h hheld => ?_⟩⟩
    · rw [scoped_after_mainStart_iff hstop]
      exact (winds_mainStop_iff hmonitoring hphasemeter).mpr fun hne => hne rfl
    · rw [scoped_after_mainStart_iff hstop, winds_mainStop_iff hmonitoring hphasemeter]
      simp
    · rw [scoped_after_mainStart_iff hends]
      exact winds_mainStop_mainReturn_iff hmonitoring hphasemeter
    · rw [runs_append, table_runs_of_ends hends] at hheld
      split_ifs at hheld with hrelease
      have hmem := (acquire_mem_of_held hheld).resolve_left (by simp [World.fresh])
      exact hrelease (release_mem_of_acquire_mem hmem)
  · simpa using ⟨hscoped (· ≠ .gnss), hscoped fun _ => True, hscoped (· ≠ .gnss)⟩
  · simp only [Option.some.injEq, reduceCtorEq, if_false, List.append_nil]
    refine ⟨hscoped _, iff_of_true (hscoped _) (by simp), ?_, fun hnone => absurd hnone (by simp)⟩
    rw [scoped_after_mainStart_iff hreturn, winds_mainReturn_iff]
    refine ⟨fun h => h.2.1, fun h => ⟨fun _ hspawn => h ?_, h, fun hspawn => h ?_⟩⟩
    · exact spawn_gnss_of_mem (by decide) hspawn
    · exact spawn_gnss_of_mem (by decide) hspawn

end Oscillatord
