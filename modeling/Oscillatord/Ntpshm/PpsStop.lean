import Mathlib.Logic.Function.Iterate
import Oscillatord.Ntpshm.Service

/-!
# Stopping the thread of the pulses

`ntpshm_link_deactivate` clears `report_hook`, frees the segment and forgets it, and does not wait
for the thread of the pulses. That thread looks at `report_hook` at the head of its loop, once more
in stage four, and loads it again to call it; `report_hook` looks at `shm_pps`, and loads it again
for `ntpshm_put`. `stopStep` lets both go on, load by load, beside the thread of the receiver; each
goes through its calls as before when the others stand still (`ppsPlaceStep_alone`,
`deactivateStep_alone`).

In whatever order they go on, the thread ends within five steps of its own once the hook is cleared,
and puts one pair more at most, if it was past the call (`stop_law`). Nothing keeps the hook from
being cleared between the look and the call, and this is when a null pointer is called. A pair that
is put late may come when the segment is no longer in use (`stop_law_lateSecond`).
-/

namespace Oscillatord

open StepRun

/-! ### Load by load -/

/-- Where the thread of the pulses is: at the head of the loop; in stages one to three; about to
look at the hook in stage four, and to call it; in `report_hook`, about to look at `shm_pps`, to
load it, and to write; about to leave `pps_out`; at its end, or at the call of a null pointer. -/
inductive PulsePlace
  | checks
  | waits
  | hooked (td : TimedeltaT)
  | calls (td : TimedeltaT)
  | reports (td : TimedeltaT)
  | puts (td : TimedeltaT)
  | writes (td : TimedeltaT) (shmseg : Option (Fin ntpshmsegs))
  | counts (td : TimedeltaT)
  | ended
  | crashed
  deriving DecidableEq

/-- A step of the thread of the pulses. -/
def ppsPlaceStep (inner : InnerContext) (tio : TioAnswer) (kpps : KppsAnswer) (s : NtpService) :
    PulsePlace → NtpService × PulsePlace
  | .checks => (s, if s.ntp.reportHook then .waits else .ended)
  | .waits =>
    let r := ppsRound inner s.monitor tio kpps
    ({ s with monitor := r.1, running := r.2.goesOn },
      match r.2.reported with
      | some td => .hooked td
      | none => if r.2.goesOn then .checks else .ended)
  -- without a hook the pair goes to `pps_out` all the same
  | .hooked td => (s, if s.ntp.reportHook then .calls td else .counts td)
  | .calls td => (s, if s.ntp.reportHook then .reports td else .crashed)
  | .reports td =>
    (s, if s.ntp.sourcetype ≠ .pps ∧ s.ntp.fixcnt ≤ ntpMinFixes then .counts td
      else if s.ntp.shmPps.isSome then .puts td else .counts td)
  | .puts td => (s, .writes td s.ntp.shmPps)
  | .writes td shmseg =>
    ({ s with context := (ntpshmPut s.context s.session.context.leapNotify shmseg td).1 },
      .counts td)
  | .counts td => ({ s with ppsOut := td, ppsoutCount := s.ppsoutCount + 1 }, .checks)
  | .ended => (s, .ended)
  | .crashed => (s, .crashed)

/-- Where `ntpshm_link_deactivate` is: not called; past `shm_clock`; past the hook; past the
segment; at its end. -/
inductive StopPlace
  | runs
  | unclocked
  | silenced
  | freed
  | done
  deriving DecidableEq

/-- A step of `ntpshm_link_deactivate`. -/
def deactivateStep (s : NtpService) : StopPlace → NtpService × StopPlace
  | .runs =>
    match s.ntp.shmClock with
    | some n =>
      ({ s with ntp := { s.ntp with shmClock := none }, context := (ntpshmFree s.context n).1 },
        .unclocked)
    | none => (s, .unclocked)
  | .unclocked =>
    if s.ntp.shmPps.isSome then
      ({ s with ntp := { s.ntp with reportHook := false } }, .silenced)
    else (s, .done)
  | .silenced =>
    match s.ntp.shmPps with
    | some n => ({ s with context := (ntpshmFree s.context n).1 }, .freed)
    | none => (s, .freed)
  | .freed => ({ s with ntp := { s.ntp with shmPps := none } }, .done)
  | .done => (s, .done)

variable {host : Host} {inner : InnerContext} {s : NtpService}

/-- Alone, the thread of the pulses makes the round. -/
theorem ppsPlaceStep_alone (hhook : s.ntp.reportHook = true) (hrunning : s.running = true)
    (kpps : KppsAnswer) :
    ∃ k, (fun r : NtpService × PulsePlace => ppsPlaceStep inner .failed kpps r.1 r.2)^[k]
        (s, .checks)
      = ((serviceRound inner s kpps).1,
          if (serviceRound inner s kpps).1.running then .checks else .ended) := by
  simp only [serviceRound, hrunning, if_true]
  generalize hr : ppsRound inner s.monitor .failed kpps = r
  rcases hreported : r.2.reported with _ | td
  · refine ⟨2, ?_⟩
    simp [Function.iterate_succ_apply, ppsPlaceStep, hhook, hr, hreported]
  · have hgoesOn : r.2.goesOn = true := by
      cases houtcome : r.2 <;> simp_all [PpsOutcome.reported, PpsOutcome.goesOn]
    by_cases hfix : s.ntp.sourcetype ≠ .pps ∧ s.ntp.fixcnt ≤ ntpMinFixes
    · refine ⟨6, ?_⟩
      simp [Function.iterate_succ_apply, ppsPlaceStep, hhook, hr, hreported, hgoesOn, hfix,
        reportHook]
    · rcases hsegment : s.ntp.shmPps with _ | n
      · refine ⟨6, ?_⟩
        simp [Function.iterate_succ_apply, ppsPlaceStep, hhook, hr, hreported, hgoesOn, hfix,
          hsegment, reportHook, ntpshmPut]
      · refine ⟨8, ?_⟩
        simp [Function.iterate_succ_apply, ppsPlaceStep, hhook, hr, hreported, hgoesOn, hfix,
          hsegment, reportHook]

/-- Alone, `ntpshm_link_deactivate` does what it does. -/
theorem deactivateStep_alone (s : NtpService) :
    (fun r : NtpService × StopPlace => deactivateStep r.1 r.2)^[4] (s, .runs)
      = ({ s with
            ntp := (ntpshmLinkDeactivate s.ntp s.context).1
            context := (ntpshmLinkDeactivate s.ntp s.context).2 }, .done) := by
  rcases hclock : s.ntp.shmClock with _ | m <;> rcases hpps : s.ntp.shmPps with _ | n <;>
    simp [Function.iterate_succ_apply, deactivateStep, ntpshmLinkDeactivate, hclock, hpps]

/-! ### Beside each other -/

/-- The service, where both threads are, where the thread of the pulses was when the hook was
cleared, the steps it has made since, and the segments it has written since, with whether they were
in use. -/
structure StopRun where
  service : NtpService
  pulse : PulsePlace
  main : StopPlace
  clearedAt : Option PulsePlace
  moves : ℕ
  late : List (Fin ntpshmsegs × Bool)

/-- The thread of the pulses makes a step, with these answers of the system; the thread of the
receiver makes an iteration; or the main thread makes a step of `ntpshm_link_deactivate`. -/
inductive StopEvent
  | pulse (tio : TioAnswer) (kpps : KppsAnswer)
  | gnss (e : GnssEvent) (clock : Timespec)
  | main

/-- The segment about to be written. -/
def PulsePlace.shmseg : PulsePlace → Option (Fin ntpshmsegs)
  | .writes _ shmseg => shmseg
  | _ => none

/-- One step. -/
def stopStep (host : Host) (inner : InnerContext) (o : StopRun) : StopEvent → StopRun
  | .pulse tio kpps =>
    let r := ppsPlaceStep inner tio kpps o.service o.pulse
    { o with
      service := r.1
      pulse := r.2
      moves := if o.clearedAt.isSome then o.moves + 1 else o.moves
      late := if o.clearedAt.isSome then
          o.late ++ (o.pulse.shmseg.map fun n => (n, o.service.context.shmTimeInuse n)).toList
        else o.late }
  | .gnss e clock => { o with service := (serviceStep host inner o.service (.gnss e clock)).1 }
  | .main =>
    let r := deactivateStep o.service o.main
    { o with
      service := r.1
      main := r.2
      clearedAt := if o.main = .unclocked ∧ o.service.ntp.shmPps.isSome then some o.pulse
        else o.clearedAt }

/-- A service that runs. -/
def StopRun.start (s : NtpService) : StopRun := ⟨s, .checks, .runs, none, 0, []⟩

/-! ### Without the hook -/

/-- The steps the thread makes at most without a hook. -/
def PulsePlace.rank : PulsePlace → ℕ
  | .checks | .calls _ => 1
  | .counts _ => 2
  | .hooked _ | .writes _ _ => 3
  | .waits | .puts _ => 4
  | .reports _ => 5
  | .ended | .crashed => 0

/-- The pairs it still puts at most. -/
def PulsePlace.pending : PulsePlace → ℕ
  | .reports _ | .puts _ => 1
  | .writes _ shmseg => shmseg.isSome.toNat
  | _ => 0

/-- It is about to call the hook. -/
def PulsePlace.Calling : PulsePlace → Prop
  | .calls _ => True
  | _ => False

variable {p : PulsePlace} {n : Fin ntpshmsegs}

theorem PulsePlace.rank_le (p : PulsePlace) : p.rank ≤ 5 := by
  cases p <;> simp [PulsePlace.rank]

theorem PulsePlace.pending_le (p : PulsePlace) : p.pending ≤ 1 := by
  cases p with
  | writes td shmseg => exact Bool.toNat_le _
  | _ => simp [PulsePlace.pending]

theorem PulsePlace.rank_eq_zero_iff : p.rank = 0 ↔ p = .ended ∨ p = .crashed := by
  cases p <;> simp [PulsePlace.rank]

/-- **A step without the hook**: the thread comes closer to its end, and calls nothing any more. -/
theorem ppsPlaceStep_silent (inner : InnerContext) (hhook : s.ntp.reportHook = false)
    (tio : TioAnswer) (kpps : KppsAnswer) (p : PulsePlace) :
    let r := ppsPlaceStep inner tio kpps s p
    r.2.rank ≤ p.rank - 1 ∧ r.2.pending + p.shmseg.isSome.toNat ≤ p.pending ∧
      ¬ r.2.Calling ∧ (r.2 = .crashed ↔ p.Calling ∨ p = .crashed) := by
  cases p with
  | waits =>
    simp only [ppsPlaceStep]
    rcases (ppsRound inner s.monitor tio kpps).2.reported with _ | td
    · cases (ppsRound inner s.monitor tio kpps).2.goesOn <;>
        simp [PulsePlace.rank, PulsePlace.pending, PulsePlace.shmseg, PulsePlace.Calling]
    · simp [PulsePlace.rank, PulsePlace.pending, PulsePlace.shmseg, PulsePlace.Calling]
  | reports td =>
    simp only [ppsPlaceStep]
    split_ifs <;>
      simp [PulsePlace.rank, PulsePlace.pending, PulsePlace.shmseg, PulsePlace.Calling]
  | puts td =>
    simp only [ppsPlaceStep]
    simpa [PulsePlace.rank, PulsePlace.pending, PulsePlace.shmseg, PulsePlace.Calling]
      using Bool.toNat_le _
  | _ =>
    simp [ppsPlaceStep, hhook, PulsePlace.rank, PulsePlace.pending, PulsePlace.shmseg,
      PulsePlace.Calling]

/-- With the hook nothing goes wrong. -/
theorem ppsPlaceStep_hooked (hhook : s.ntp.reportHook = true) (tio : TioAnswer) (kpps : KppsAnswer)
    (hp : p ≠ .crashed) : (ppsPlaceStep inner tio kpps s p).2 ≠ .crashed := by
  cases p with
  | waits =>
    simp only [ppsPlaceStep]
    rcases (ppsRound inner s.monitor tio kpps).2.reported with _ | td
    · cases (ppsRound inner s.monitor tio kpps).2.goesOn <;> simp
    · simp
  | reports td =>
    simp only [ppsPlaceStep]
    split_ifs <;> simp
  | crashed => exact absurd rfl hp
  | _ => simp [ppsPlaceStep, hhook]

/-- The thread of the pulses changes no pointer, and the segment it is about to write is that of the
session. -/
theorem ppsPlaceStep_ntp (inner : InnerContext) (tio : TioAnswer) (kpps : KppsAnswer)
    (p : PulsePlace) :
    (ppsPlaceStep inner tio kpps s p).1.ntp = s.ntp ∧
      ∀ n ∈ (ppsPlaceStep inner tio kpps s p).2.shmseg, s.ntp.shmPps = some n := by
  cases p with
  | waits =>
    simp only [ppsPlaceStep]
    rcases (ppsRound inner s.monitor tio kpps).2.reported with _ | td
    · cases (ppsRound inner s.monitor tio kpps).2.goesOn <;> simp [PulsePlace.shmseg]
    · simp [PulsePlace.shmseg]
  | reports td =>
    simp only [ppsPlaceStep]
    split_ifs <;> simp [PulsePlace.shmseg]
  | puts td => exact ⟨rfl, fun n hn => hn⟩
  | checks | hooked | calls =>
    simp only [ppsPlaceStep]
    split_ifs <;> simp [PulsePlace.shmseg]
  | _ => simp [ppsPlaceStep, PulsePlace.shmseg]

/-! ### The invariant -/

/-- Since the hook was cleared, when the thread of the pulses was at `p`. -/
structure SinceCleared (n : Fin ntpshmsegs) (p : PulsePlace) (o : StopRun) : Prop where
  place : o.moves = 0 → o.pulse = p
  rank : o.pulse.rank ≤ p.rank - o.moves
  late : o.late.length + o.pulse.pending ≤ p.pending
  segment : ∀ m ∈ o.late, m.1 = n
  called : 0 < o.moves → ¬ o.pulse.Calling ∧ (o.pulse = .crashed ↔ p.Calling)

/-- Until the hook is cleared, and since. -/
def PulseInv (n : Fin ntpshmsegs) (o : StopRun) : Option PulsePlace → Prop
  | none => o.pulse ≠ .crashed ∧ o.moves = 0 ∧ o.late = []
  | some p => p ≠ .crashed ∧ SinceCleared n p o

/-- Where `ntpshm_link_deactivate` is. -/
def StopPlace.Inv (n : Fin ntpshmsegs) (o : StopRun) : StopPlace → Prop
  | .runs | .unclocked => o.clearedAt = none ∧ o.service.ntp.shmPps = some n
  | .silenced | .freed => o.clearedAt.isSome = true ∧ o.service.ntp.shmPps = some n
  | .done => o.clearedAt.isSome = true ∧ o.service.ntp.shmPps = none

/-- The invariant, for a session that has segment `n`. -/
structure StopInv (n : Fin ntpshmsegs) (o : StopRun) : Prop where
  hook : o.service.ntp.reportHook = o.clearedAt.isNone
  main : o.main.Inv n o
  shmseg : ∀ m ∈ o.pulse.shmseg, m = n
  pulse : PulseInv n o o.clearedAt

variable {o : StopRun}

theorem StopInv.shmPps (h : StopInv n o) {m : Fin ntpshmsegs}
    (hm : o.service.ntp.shmPps = some m) : m = n := by
  have hmain := h.main
  cases hplace : o.main <;> rw [hplace, StopPlace.Inv, hm] at hmain <;>
    first
    | exact Option.some.inj hmain.2
    | cases hmain.2

/-- A step of the thread of the pulses. -/
theorem StopInv.pulseStep (h : StopInv n o) (tio : TioAnswer) (kpps : KppsAnswer) :
    StopInv n (stopStep host inner o (.pulse tio kpps)) := by
  obtain ⟨hntp, hshmseg⟩ := ppsPlaceStep_ntp (s := o.service) inner tio kpps o.pulse
  have hhook := h.hook
  have hpulse := h.pulse
  have hmain := h.main
  refine
    { hook := (congrArg NtpSession.reportHook hntp).trans hhook
      main := ?_
      shmseg := fun m hm => h.shmPps (hshmseg m hm)
      pulse := ?_ }
  · simp only [stopStep]
    cases hplace : o.main <;> rw [hplace] at hmain <;>
      simpa only [StopPlace.Inv, hntp] using hmain
  · rcases hcleared : o.clearedAt with _ | p <;> rw [hcleared] at hhook hpulse
    · simp only [stopStep, hcleared]
      exact ⟨ppsPlaceStep_hooked hhook tio kpps hpulse.1, hpulse.2⟩
    · obtain ⟨hp, hsince⟩ := hpulse
      obtain ⟨hrank, hpending, hcalling, hcrashed⟩ :=
        ppsPlaceStep_silent inner hhook tio kpps o.pulse
      have hlate := hsince.late
      have hlength : (o.pulse.shmseg.map fun n =>
          (n, o.service.context.shmTimeInuse n)).toList.length = o.pulse.shmseg.isSome.toNat := by
        cases o.pulse.shmseg <;> rfl
      have hcalled : o.pulse.Calling ∨ o.pulse = .crashed ↔ p.Calling := by
        rcases Nat.eq_zero_or_pos o.moves with hmoves | hmoves
        · rw [hsince.place hmoves]
          exact or_iff_left hp
        · obtain ⟨hnot, hiff⟩ := hsince.called hmoves
          exact (or_iff_right hnot).trans hiff
      simp only [stopStep, hcleared, Option.isSome_some, if_true]
      refine ⟨hp,
        { place := fun hmoves => absurd hmoves (Nat.succ_ne_zero _)
          rank := ?_
          late := ?_
          segment := fun m hm => ?_
          called := fun _ => ⟨hcalling, hcrashed.trans hcalled⟩ }⟩
      · have hbefore := hsince.rank
        simp only
        omega
      · simp only [List.length_append, hlength]
        omega
      · rcases List.mem_append.mp hm with hm | hm
        · exact hsince.segment m hm
        · simp only [Option.mem_toList, Option.map_eq_some_iff] at hm
          obtain ⟨n', hn', rfl⟩ := hm
          exact h.shmseg n' hn'

/-- Only the thread of the pulses moves. -/
theorem PulseInv.congr {o' : StopRun} (hpulse : o'.pulse = o.pulse) (hmoves : o'.moves = o.moves)
    (hlate : o'.late = o.late) {c : Option PulsePlace} (h : PulseInv n o c) : PulseInv n o' c := by
  cases c with
  | none =>
    rw [PulseInv, hpulse, hmoves, hlate]
    exact h
  | some p =>
    obtain ⟨hp, hplace, hrank, hcount, hsegment, hcalled⟩ := h
    rw [← hmoves, ← hpulse] at hplace hrank hcalled
    rw [← hlate, ← hpulse] at hcount
    rw [← hlate] at hsegment
    exact ⟨hp, hplace, hrank, hcount, hsegment, hcalled⟩

/-- A step of `ntpshm_link_deactivate`. -/
theorem StopInv.mainStep (h : StopInv n o) : StopInv n (stopStep host inner o .main) := by
  have hhook := h.hook
  have hpulse := h.pulse
  have hmain := h.main
  cases hplace : o.main with
  | runs =>
    rw [hplace] at hmain
    have hruns : (deactivateStep o.service .runs).2 = .unclocked ∧
        (deactivateStep o.service .runs).1.ntp.reportHook = o.service.ntp.reportHook ∧
        (deactivateStep o.service .runs).1.ntp.shmPps = o.service.ntp.shmPps := by
      rw [deactivateStep]
      cases o.service.ntp.shmClock <;> exact ⟨rfl, rfl, rfl⟩
    have hcleared : (stopStep host inner o .main).clearedAt = o.clearedAt := by
      simp [stopStep, hplace]
    refine
      { hook := ?_, main := ?_, shmseg := h.shmseg
        pulse := ?_ }
    · rw [hcleared, ← hhook]
      simpa only [stopStep, hplace] using hruns.2.1
    · simp only [stopStep, hplace, hruns.1]
      exact ⟨by simpa using hmain.1, hruns.2.2.trans hmain.2⟩
    · rw [hcleared]
      refine hpulse.congr ?_ ?_ ?_ <;> rfl
  | unclocked =>
    rw [hplace] at hmain
    have hstep : stopStep host inner o .main =
        { o with
          service := { o.service with ntp := { o.service.ntp with reportHook := false } }
          main := .silenced
          clearedAt := some o.pulse } := by
      simp [stopStep, hplace, deactivateStep, hmain.2]
    rw [hmain.1] at hpulse
    obtain ⟨hp, hmoves, hlate⟩ := hpulse
    rw [hstep]
    refine
      { hook := rfl, main := ⟨rfl, hmain.2⟩, shmseg := h.shmseg
        pulse := ⟨hp,
          { place := fun _ => rfl
            rank := by simp [hmoves]
            late := by simp [hlate]
            segment := by simp [hlate]
            called := fun hpos => absurd hmoves hpos.ne' }⟩ }
  | silenced =>
    rw [hplace] at hmain
    have hstep : stopStep host inner o .main =
        { o with
          service := { o.service with context := (ntpshmFree o.service.context n).1 }
          main := .freed } := by
      simp [stopStep, hplace, deactivateStep, hmain.2]
    rw [hstep]
    refine { hook := hhook, main := hmain, shmseg := h.shmseg, pulse := ?_ }
    refine hpulse.congr ?_ ?_ ?_ <;> rfl
  | freed =>
    rw [hplace] at hmain
    have hstep : stopStep host inner o .main =
        { o with
          service := { o.service with ntp := { o.service.ntp with shmPps := none } }
          main := .done } := by
      simp [stopStep, hplace, deactivateStep]
    rw [hstep]
    refine { hook := hhook, main := ⟨hmain.1, rfl⟩, shmseg := h.shmseg, pulse := ?_ }
    refine hpulse.congr ?_ ?_ ?_ <;> rfl
  | done =>
    have hstep : stopStep host inner o .main = o := by
      obtain ⟨service, pulse, main, clearedAt, moves, late⟩ := o
      obtain rfl : main = .done := hplace
      simp [stopStep, deactivateStep]
    rw [hstep]
    exact h

/-- **One step.** -/
theorem StopInv.step (h : StopInv n o) (e : StopEvent) : StopInv n (stopStep host inner o e) := by
  cases e with
  | pulse tio kpps => exact h.pulseStep tio kpps
  | gnss e clock =>
    have hmain := h.main
    refine { hook := h.hook, main := ?_, shmseg := h.shmseg, pulse := ?_ }
    · simp only [stopStep]
      cases hplace : o.main <;> rw [hplace] at hmain <;> exact hmain
    · refine h.pulse.congr ?_ ?_ ?_ <;> rfl
  | main => exact h.mainStep

/-- **Stopping.** Whatever the order of the steps, as long as the hook is set the thread of the
pulses calls no null pointer; and from then on it does exactly if it was about to call the hook,
puts one pair more at most, into the segment of the session, if it was past the call, and has ended
after five steps of its own. -/
theorem stop_law (hhook : s.ntp.reportHook = true) (hsegment : s.ntp.shmPps = some n)
    (es : List StopEvent) :
    let o := after (stopStep host inner) (StopRun.start s) es
    (o.clearedAt = none → o.pulse ≠ .crashed ∧ o.late = []) ∧
      ∀ p, o.clearedAt = some p →
        (o.pulse = .crashed ↔ p.Calling ∧ 0 < o.moves) ∧
          o.late.length ≤ p.pending ∧ p.pending ≤ 1 ∧ (∀ m ∈ o.late, m.1 = n) ∧
          (5 ≤ o.moves → o.pulse = .ended ∨ o.pulse = .crashed) := by
  intro o
  have hinv : StopInv n o := by
    refine after_induction (P := StopInv n) ?_ fun o e h => h.step e
    exact
      { hook := hhook, main := ⟨rfl, hsegment⟩, shmseg := fun m hm => by cases hm
        pulse := ⟨by simp [StopRun.start], rfl, rfl⟩ }
  have hpulse := hinv.pulse
  refine ⟨fun hnone => ?_, fun p hp => ?_⟩
  · rw [hnone] at hpulse
    exact ⟨hpulse.1, hpulse.2.2⟩
  · rw [hp] at hpulse
    obtain ⟨hnot, hsince⟩ := hpulse
    have hlate := hsince.late
    have hrank := hsince.rank
    refine ⟨⟨fun hcrashed => ?_, fun hcalls => ?_⟩, by omega, p.pending_le, hsince.segment,
      fun hmoves => ?_⟩
    · rcases Nat.eq_zero_or_pos o.moves with hzero | hpos
      · exact absurd ((hsince.place hzero).symm.trans hcrashed) hnot
      · exact ⟨(hsince.called hpos).2.mp hcrashed, hpos⟩
    · exact (hsince.called hcalls.2).2.mpr hcalls.1
    · have hle := p.rank_le
      exact PulsePlace.rank_eq_zero_iff.mp (by omega)

/-- Two edges come after a fix; when the second is about to be written, the hook is cleared and the
segment is freed. -/
def lateSecond : List StopEvent :=
  let edge := fun k : ℕ => StopEvent.pulse .failed
    (.fetched ⟨⟨1715932800, 0⟩, ⟨10, 500000000⟩⟩ (PulseTrain.hertz.info k))
  List.replicate 2 (edge 0) ++ List.replicate 6 (edge 1) ++ List.replicate 3 .main ++ [edge 1]

theorem stop_law_lateSecond :
    let o := after (stopStep hostUtc PulseTrain.kernelWaits)
      (StopRun.start (.start sessionZero sessionPps contextPps)) lateSecond
    o.late = [(⟨2, by decide⟩, false)] ∧
      (o.clearedAt = none → o.pulse ≠ .crashed ∧ o.late = []) ∧
      ∀ p, o.clearedAt = some p →
        (o.pulse = .crashed ↔ p.Calling ∧ 0 < o.moves) ∧
          o.late.length ≤ p.pending ∧ p.pending ≤ 1 ∧ (∀ m ∈ o.late, m.1 = ⟨2, by decide⟩) ∧
          (5 ≤ o.moves → o.pulse = .ended ∨ o.pulse = .crashed) :=
  ⟨by decide +kernel, stop_law rfl rfl lateSecond⟩

end Oscillatord
