import Mathlib.Data.Int.Basic
import Mathlib.Tactic.Common
import Oscillatord.Ntpshm.Segment

/-!
# The thread of the pulses

`gpsd_ppsmonitor` waits for an edge of the pulse line, by the capture of the kernel
(`time_pps_fetch`) or on a serial line (`TIOCMIWAIT`), and judges it by two lengths: the time since
the last edge of its kind, the cycle, and the time since the last edge of the other kind, the
duration. An edge that starts a second is paired with the second after the last fix, and is reported
if that fix is recent.

`ppsRound` is one round of the loop, from the answers of the system to what becomes of the edge.
A fix is recent up to 1.1 s after it and, since the source compares `2 < delay.tv_sec`, again from
2 s to below 3 s (`ppsReport_eq`). What the lengths decide is overruled on a serial line, where `ok`
is set before they are looked at (`ppsRound_tio`).
-/

namespace Oscillatord

universe u

/-! ### The answers of the system -/

/-- What matters in `struct inner_context_t` and of the device: whether the kernel can wait for an
edge, whether there is a kernel handle, and whether the device is no serial line. `init_kernel_pps`
learns the first from the second. -/
structure InnerContext where
  ppsCanwait : Bool
  kernelpps : Bool
  notATty : Bool
  handle_of_canwait : ppsCanwait = true → kernelpps = true

/-- `pps_info_t`: the last edge of each kind. -/
structure PpsInfo where
  assertTimestamp : Timespec
  clearTimestamp : Timespec
  deriving Repr, DecidableEq

/-- What `get_edge_tiocmiwait` finds: an error, or a change of the control lines, the fix at this
moment, the time, and the lines. -/
inductive TioAnswer
  | failed
  | edge (fixIn : TimedeltaT) (clockTs : Timespec) (state : ℕ)
  deriving Repr, DecidableEq

/-- What `time_pps_fetch` brings: nothing in three seconds, an error, or the edges, with the fix at
this moment. -/
inductive KppsAnswer
  | timeout
  | failed
  | fetched (fixIn : TimedeltaT) (pi : PpsInfo)
  deriving Repr, DecidableEq

/-! ### Stage one: the edge -/

/-- The variables of `gpsd_ppsmonitor` that a round leaves to the next one. -/
structure PpsMonitor where
  lastFixtime : TimedeltaT := ⟨⟨0, 0⟩, ⟨0, 0⟩⟩
  unchanged : ℕ := 0
  stateLast : Bool := false
  stateLastTio : ℕ := 0
  pulseTio : Bool → Timespec := fun _ => ⟨0, 0⟩
  pulseKpps : Bool → Timespec := fun _ => ⟨0, 0⟩

/-- An edge: its kind (`true` for assert), its time, and the two lengths in microseconds. -/
structure PpsEdge where
  edge : Bool
  clockTs : Timespec
  cycle : ℤ
  duration : ℤ
  deriving Repr, DecidableEq

/-- `last_second_used`, which is never assigned. -/
def lastSecondUsed : ℤ := 0

/-- The last two edges, as `get_edge_rfc2783` finds them. -/
structure KppsEdges where
  prevClockTs : Timespec
  prevEdge : Bool
  clockTs : Timespec
  edge : Bool
  deriving Repr, DecidableEq

/-- The part of `get_edge_rfc2783` that tells the two edges apart. -/
def ppsLastEdges (pi : PpsInfo) : KppsEdges :=
  let edge :=
    if pi.assertTimestamp.tvSec > pi.clearTimestamp.tvSec then true
    else if pi.assertTimestamp.tvSec < pi.clearTimestamp.tvSec then false
    else if pi.assertTimestamp.tvNsec > pi.clearTimestamp.tvNsec then true
    else false
  if edge then
    { prevEdge := false
      -- some drivers never fill in the clear edge: the pulse then looks invisible
      prevClockTs := if 0 = pi.clearTimestamp.tvSec then pi.assertTimestamp else pi.clearTimestamp
      clockTs := pi.assertTimestamp
      edge := true }
  else
    { prevEdge := true
      prevClockTs := pi.assertTimestamp
      clockTs := pi.clearTimestamp
      edge := false }

/-- `get_edge_rfc2783`: the edges and the last fix, or `none` after a timeout. A fetch that fails
leaves the variables of its caller at zero, and the fix as it was. -/
def getEdgeRfc2783 (inner : InnerContext) (lastFixtime : TimedeltaT) :
    KppsAnswer → Option (KppsEdges × TimedeltaT)
  | .timeout => none
  | .failed => some (⟨⟨0, 0⟩, false, ⟨0, 0⟩, false⟩, lastFixtime)
  | .fetched fixIn pi => some (ppsLastEdges pi, if inner.ppsCanwait then fixIn else lastFixtime)

/-- What stage one comes to: the thread ends, the round ends, or there is an edge; `ok` tells
whether it is already taken for good. -/
inductive StageOne
  | dies (log : String)
  | again (m : PpsMonitor)
  | found (m : PpsMonitor) (e : PpsEdge) (ok : Bool)

/-- The wait on the serial line. -/
def ppsStageTio (m : PpsMonitor) : TioAnswer → StageOne
  | .failed => .dies "TIOCMIWAIT Error"
  | .edge fixIn clockTs state =>
    let edge := decide (state > m.stateLastTio)
    .found
      { m with
        lastFixtime := fixIn
        stateLastTio := state
        pulseTio := Function.update m.pulseTio edge clockTs }
      { edge := edge
        clockTs := clockTs
        cycle := (timespecDiffNs clockTs (m.pulseTio edge)).tdiv 1000
        duration := (timespecDiffNs clockTs (m.pulseTio !edge)).tdiv 1000 }
      true

/-- The fetch from the kernel, after the serial line if it was waited on. -/
def ppsStageKpps (inner : InnerContext) (m : PpsMonitor) (ok : Bool) (kpps : KppsAnswer) :
    StageOne :=
  match getEdgeRfc2783 inner m.lastFixtime kpps with
  | none => .again m
  | some (edges, lastFixtime) =>
    .found
      { m with
        lastFixtime := lastFixtime
        pulseKpps := Function.update (Function.update m.pulseKpps edges.edge edges.clockTs)
          (!edges.edge) edges.prevClockTs }
      { edge := edges.edge
        clockTs := edges.clockTs
        cycle := (timespecDiffNs edges.clockTs (m.pulseKpps edges.edge)).tdiv 1000
        duration := (timespecDiffNs edges.clockTs edges.prevClockTs).tdiv 1000 }
      ok

/-- Without a way to wait the thread ends. -/
def noWait : StageOne := .dies "no TIOMCIWAIT, nor RFC2783 CANWAIT"

/-- Stage one. -/
def ppsStageOne (inner : InnerContext) (m : PpsMonitor) (tio : TioAnswer) (kpps : KppsAnswer) :
    StageOne :=
  if !inner.notATty && !inner.ppsCanwait then
    match ppsStageTio m tio with
    | .found m e ok => if inner.kernelpps then ppsStageKpps inner m ok kpps else .found m e ok
    | stage => stage
  else if inner.kernelpps then
    match ppsStageKpps inner m false kpps with
    | .found m e ok => if inner.notATty && !inner.ppsCanwait then noWait else .found m e ok
    | stage => stage
  else noWait

/-! ### Stage two: the kind of pulse -/

/-- A cycle of 5 Hz, 1 Hz or 0.5 Hz, of a pulse whose other edge is not seen. -/
def ppsInvisible (cycle : ℤ) : Prop :=
  (180000 < cycle ∧ 220000 > cycle) ∨ (900000 < cycle ∧ 1100000 > cycle)
    ∨ (1800000 < cycle ∧ 2200000 > cycle)

instance (cycle : ℤ) : Decidable (ppsInvisible cycle) := inferInstanceAs (Decidable (_ ∨ _ ∨ _))

/-- What an edge of this cycle and this duration is called, and whether it starts a second. -/
def ppsCategory (edge : Bool) (cycle duration : ℤ) : String × Bool :=
  if 0 > cycle then ("Rejecting negative cycle", false)
  else if 180000 > cycle then ("Too short for 5Hz", false)
  else if 201000 > cycle then
    if 100000 > duration then ("5Hz PPS pulse", true) else ("Unknown error", false)
  else if 900000 > cycle then ("Too long for 5Hz, too short for 1Hz", false)
  else if 1100000 > cycle then
    if 0 = duration then ("invisible pulse", true)
    else if 450000 > duration then ("1Hz trailing edge", false)
    else if 555000 > duration then
      -- a square wave: one of the edges is guessed
      if edge then ("square", true) else ("Unknown error", false)
    else ("1Hz leading edge", true)
  else if 1800000 > cycle then ("Too long for 1Hz, too short for 2Hz", false)
  else if 2200000 > cycle then
    if 990000 > duration then ("0.5 Hz square too short duration", false)
    else if 1100000 > duration then ("0.5 Hz square wave", true)
    else ("0.5 Hz square too long duration", false)
  else ("Too long for 0.5Hz", false)

/-! ### Stages three and four: the second, and the report -/

/-- What becomes of a round. -/
inductive PpsOutcome
  | dies (log : String)
  | again
  | unchanged
  | ignored (log : String)
  | refused (log1 : String)
  | reports (ppstimes : TimedeltaT)
  deriving Repr, DecidableEq

/-- Stage four: the hook is called unless the last fix is too old, or of a later time. -/
def ppsReport (lastFixtime : TimedeltaT) (clockTs : Timespec) : PpsOutcome :=
  let ppstimes : TimedeltaT := ⟨⟨lastFixtime.real.tvSec + 1, 0⟩, clockTs⟩
  let delay := tsSub ppstimes.clock lastFixtime.clock
  if 0 > delay.tvSec ∨ 0 > delay.tvNsec then .refused "system clock went backwards"
  else if 2 < delay.tvSec ∨ (1 = delay.tvSec ∧ 100000000 < delay.tvNsec) then
    .refused "timestamp out of range"
  else .reports ppstimes

/-- Stages three and four, for an edge that was given a name. -/
def ppsJudge (lastFixtime : TimedeltaT) (clockTs : Timespec) (ok : Bool) (log : String) :
    PpsOutcome :=
  if lastFixtime.real.tvSec = 0 then .ignored "missing last_fixtime"
  else if ok ∧ lastSecondUsed ≥ lastFixtime.real.tvSec then .ignored "this second already handled"
  else if !ok then .ignored log
  else ppsReport lastFixtime clockTs

/-! ### The loop -/

/-- `++unchanged`; the thread sleeps when it comes to ten. -/
def ppsUnchanged (m : PpsMonitor) : ℕ := if m.unchanged + 1 = 10 then 0 else m.unchanged + 1

/-- Whether an edge is looked at: the state has changed, or the cycle is that of a pulse, or it is
the first edge after a sleep. -/
def ppsLooked (m : PpsMonitor) (e : PpsEdge) : Prop :=
  e.edge ≠ m.stateLast ∨ ppsInvisible e.cycle ∨ m.unchanged = 0

instance (m : PpsMonitor) (e : PpsEdge) : Decidable (ppsLooked m e) :=
  inferInstanceAs (Decidable (_ ∨ _ ∨ _))

/-- What an edge is called, with no duration if it is that of an invisible pulse. -/
def ppsNamed (m : PpsMonitor) (e : PpsEdge) : String × Bool :=
  ppsCategory e.edge e.cycle
    (if e.edge = m.stateLast ∧ ppsInvisible e.cycle then 0 else e.duration)

/-- The round from stage two on. -/
def ppsStageTwo (m : PpsMonitor) (e : PpsEdge) (ok : Bool) : PpsMonitor × PpsOutcome :=
  ({ m with
      stateLast := e.edge
      unchanged := if ppsLooked m e then 0 else m.unchanged },
    if ppsLooked m e then
      ppsJudge m.lastFixtime e.clockTs (ok || (ppsNamed m e).2) (ppsNamed m e).1
    else .unchanged)

/-- A round of the loop, with the answers of the system. -/
def ppsRound (inner : InnerContext) (m : PpsMonitor) (tio : TioAnswer) (kpps : KppsAnswer) :
    PpsMonitor × PpsOutcome :=
  let m := { m with unchanged := ppsUnchanged m }
  match ppsStageOne inner m tio kpps with
  | .dies log => (m, .dies log)
  | .again m => (m, .again)
  | .found m e ok => ppsStageTwo m e ok

/-- The thread, and what became of its rounds, the first one first. -/
structure PpsRun where
  monitor : PpsMonitor := {}
  running : Bool := true
  outcomes : List PpsOutcome := []

/-- The thread goes on. -/
def PpsOutcome.goesOn : PpsOutcome → Bool
  | .dies _ => false
  | _ => true

/-- The pair that is reported. -/
def PpsOutcome.reported : PpsOutcome → Option TimedeltaT
  | .reports ppstimes => some ppstimes
  | _ => none

/-- One more round, if the thread has not ended. -/
def ppsStep (inner : InnerContext) (s : PpsRun) (answers : TioAnswer × KppsAnswer) : PpsRun :=
  if s.running then
    let (monitor, outcome) := ppsRound inner s.monitor answers.1 answers.2
    { monitor := monitor
      running := outcome.goesOn
      outcomes := s.outcomes ++ [outcome] }
  else s

theorem ppsStep_of_running {inner : InnerContext} {s : PpsRun} (h : s.running = true)
    (tio : TioAnswer) (kpps : KppsAnswer) :
    ppsStep inner s (tio, kpps) =
      { monitor := (ppsRound inner s.monitor tio kpps).1
        running := (ppsRound inner s.monitor tio kpps).2.goesOn
        outcomes := s.outcomes ++ [(ppsRound inner s.monitor tio kpps).2] } := by
  rw [ppsStep, if_pos h]

/-! ### The delay -/

/-- The delays since the last fix, in nanoseconds, with which a second is reported. -/
def Recent (delay : ℤ) : Prop :=
  (0 ≤ delay ∧ delay ≤ 1100000000) ∨ (2000000000 ≤ delay ∧ delay < 3000000000)

instance (delay : ℤ) : Decidable (Recent delay) := inferInstanceAs (Decidable (_ ∨ _))

variable {lastFixtime : TimedeltaT} {clockTs : Timespec}

/-- **Stage four**: an edge is reported as the second after the last fix, if the fix is recent. -/
theorem ppsReport_eq (hfix : lastFixtime.clock.Normal) (hclock : clockTs.Normal) :
    ppsReport lastFixtime clockTs =
      if Recent (clockTs.toNs - lastFixtime.clock.toNs) then
        .reports ⟨⟨lastFixtime.real.tvSec + 1, 0⟩, clockTs⟩
      else if clockTs.toNs - lastFixtime.clock.toNs < 0 then
        .refused "system clock went backwards"
      else .refused "timestamp out of range" := by
  obtain ⟨⟨hlower, hupper, hpos, hneg⟩, hns⟩ := tsSub_spec hclock hfix
  rw [← hns]
  simp only [ppsReport]
  generalize tsSub clockTs lastFixtime.clock = delay at hlower hupper hpos hneg ⊢
  clear hns
  generalize hns : delay.toNs = ns
  simp only [Timespec.toNs, nsInSec] at hns hlower hupper hpos hneg
  by_cases hrecent : Recent ns
  · have hbounds := hrecent
    rw [Recent] at hbounds
    rw [if_pos hrecent, if_neg (by omega), if_neg (by omega)]
  · have hbounds := hrecent
    rw [Recent] at hbounds
    rw [if_neg hrecent]
    by_cases hbefore : ns < 0
    · rw [if_pos hbefore, if_pos (by omega)]
    · rw [if_neg hbefore, if_neg (by omega), if_pos (by omega)]

/-- An edge is reported exactly when the fix is recent. -/
theorem ppsReport_reports_iff (hfix : lastFixtime.clock.Normal) (hclock : clockTs.Normal)
    {ppstimes : TimedeltaT} :
    ppsReport lastFixtime clockTs = .reports ppstimes ↔
      Recent (clockTs.toNs - lastFixtime.clock.toNs) ∧
        ppstimes = ⟨⟨lastFixtime.real.tvSec + 1, 0⟩, clockTs⟩ := by
  rw [ppsReport_eq hfix hclock]
  split_ifs with hrecent hbackwards
  · simp [hrecent, eq_comm]
  · simp [hrecent]
  · simp [hrecent]

/-- Stages three and four. -/
theorem ppsJudge_reports_iff (hfix : lastFixtime.clock.Normal) (hclock : clockTs.Normal) {ok : Bool}
    {log : String} {ppstimes : TimedeltaT} :
    ppsJudge lastFixtime clockTs ok log = .reports ppstimes ↔
      ok = true ∧ 0 < lastFixtime.real.tvSec ∧
        Recent (clockTs.toNs - lastFixtime.clock.toNs) ∧
        ppstimes = ⟨⟨lastFixtime.real.tvSec + 1, 0⟩, clockTs⟩ := by
  rw [ppsJudge, ← ppsReport_reports_iff hfix hclock]
  rcases lt_trichotomy lastFixtime.real.tvSec 0 with hsec | hsec | hsec
  · cases ok <;> simp [lastSecondUsed, hsec.ne, hsec.le, hsec.not_gt]
  · simp [hsec]
  · cases ok <;> simp [lastSecondUsed, hsec.ne', hsec.not_ge, hsec]

theorem ppsJudge_reported (hfix : lastFixtime.clock.Normal) (hclock : clockTs.Normal) (ok : Bool)
    (log : String) :
    (ppsJudge lastFixtime clockTs ok log).reported =
      if ok = true ∧ 0 < lastFixtime.real.tvSec ∧
          Recent (clockTs.toNs - lastFixtime.clock.toNs) then
        some ⟨⟨lastFixtime.real.tvSec + 1, 0⟩, clockTs⟩
      else none := by
  split_ifs with hreports
  · rw [(ppsJudge_reports_iff hfix hclock).mpr ⟨hreports.1, hreports.2.1, hreports.2.2, rfl⟩]
    rfl
  · rcases houtcome : ppsJudge lastFixtime clockTs ok log with _ | _ | _ | _ | _ | ppstimes <;>
      first | rfl | skip
    obtain ⟨hok, hsec, hrecent, -⟩ := (ppsJudge_reports_iff hfix hclock).mp houtcome
    exact absurd ⟨hok, hsec, hrecent⟩ hreports

/-- An edge that starts no second is not reported. -/
theorem ppsJudge_false (log : String) :
    (ppsJudge lastFixtime clockTs false log).reported = none := by
  simp only [ppsJudge, Bool.false_eq_true, false_and, if_false, Bool.not_false, if_true]
  split_ifs <;> rfl

theorem ppsJudge_goesOn (ok : Bool) (log : String) :
    (ppsJudge lastFixtime clockTs ok log).goesOn = true := by
  rw [ppsJudge, ppsReport]
  split_ifs <;> rfl

/-! ### The serial line -/

/-- An edge that is taken for good needs no name. -/
theorem ppsJudge_true (log log' : String) :
    ppsJudge lastFixtime clockTs true log = ppsJudge lastFixtime clockTs true log' := by
  simp [ppsJudge]

/-- The edge that the serial line shows. -/
def serialEdge (m : PpsMonitor) (clockTs : Timespec) (state : ℕ) : PpsEdge where
  edge := decide (state > m.stateLastTio)
  clockTs := clockTs
  cycle := (timespecDiffNs clockTs (m.pulseTio (decide (state > m.stateLastTio)))).tdiv 1000
  duration := (timespecDiffNs clockTs (m.pulseTio !decide (state > m.stateLastTio))).tdiv 1000

/-- The variables then. -/
def serialMonitor (m : PpsMonitor) (fixIn : TimedeltaT) (clockTs : Timespec) (state : ℕ) :
    PpsMonitor :=
  { m with
    lastFixtime := fixIn
    unchanged := ppsUnchanged m
    stateLastTio := state
    pulseTio := Function.update m.pulseTio (decide (state > m.stateLastTio)) clockTs }

variable {inner : InnerContext}

/-- A round on a serial line, without the kernel. -/
theorem ppsRound_serial (htty : inner.notATty = false) (hkernelpps : inner.kernelpps = false)
    (m : PpsMonitor) (fixIn : TimedeltaT) (clockTs : Timespec) (state : ℕ) (kpps : KppsAnswer) :
    ppsRound inner m (.edge fixIn clockTs state) kpps =
      ppsStageTwo (serialMonitor m fixIn clockTs state) (serialEdge m clockTs state) true := by
  have hcanwait : inner.ppsCanwait = false := by
    by_contra hcanwait
    have hhandle := inner.handle_of_canwait (Bool.not_eq_false _ ▸ hcanwait)
    rw [hkernelpps] at hhandle
    cases hhandle
  simp only [ppsRound, ppsStageOne, htty, hcanwait, Bool.not_false, Bool.and_true, if_true,
    ppsStageTio, hkernelpps, Bool.false_eq_true, if_false]
  rfl

/-- **On a serial line, what the lengths decide does not count**: the edge is judged by the fix
alone, if it is looked at at all. -/
theorem ppsRound_tio (htty : inner.notATty = false) (hkernelpps : inner.kernelpps = false)
    (m : PpsMonitor) (fixIn : TimedeltaT) (clockTs : Timespec) (state : ℕ) (kpps : KppsAnswer) :
    (ppsRound inner m (.edge fixIn clockTs state) kpps).2 =
      if ppsLooked (serialMonitor m fixIn clockTs state) (serialEdge m clockTs state) then
        ppsJudge fixIn clockTs true ""
      else .unchanged := by
  rw [ppsRound_serial htty hkernelpps]
  simp only [ppsStageTwo, Bool.true_or]
  rw [ppsJudge_true _ ""]
  rfl

end Oscillatord
