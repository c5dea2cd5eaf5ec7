import Mathlib.Data.Int.ConditionallyCompleteOrder
import Mathlib.Data.List.Range
import Mathlib.Order.Monotone.Basic
import Oscillatord.Library.Runs
import Oscillatord.Ntpshm.PpsThread

/-!
# Pulses of one hertz

An `EdgeTrain` is a line that goes up and down in turn. A `PulseTrain` is one with a pulse each
second, of either polarity, as `gpsd_ppsmonitor` is to recognise it: its width, the gap after it and
both cycles are in the windows of the source. The edges are counted from a leading one, which is the
start of a second.

With the capture of the kernel, and each edge fetched, exactly the leading edges of a pulse train
are reported, each with the second after the last fix, from the second edge fetched on
(`reported_train`). On a serial line alone every edge but the first is reported, the trailing ones
and those of other lengths as well (`reported_tio`).
-/

namespace Oscillatord

open StepRun

/-! ### The train -/

/-- The times of the edges, the leading ones at even places. -/
structure EdgeTrain where
  time : ℕ → Timespec
  lead : Bool
  normal : ∀ k, (time k).Normal

namespace EdgeTrain

variable (T : EdgeTrain)

/-- The kind of an edge. -/
def edge (k : ℕ) : Bool := if k % 2 = 0 then T.lead else !T.lead

theorem edge_succ (k : ℕ) : T.edge (k + 1) = !T.edge k := by
  simp only [edge]
  rcases Nat.mod_two_eq_zero_or_one k with hk | hk
  · rw [if_pos hk, if_neg (by omega)]
  · rw [if_pos (by omega), if_neg (by omega), Bool.not_not]

end EdgeTrain

/-- A pulse each second, on a clock that was set: it is some seconds after its epoch at least. A
pulse takes from 1 µs to below 450 ms, there are 555 ms at least to the next one, and from an edge
to the next of its kind it is from 900 ms to below 1100 ms. -/
structure PulseTrain extends EdgeTrain where
  late : ∀ k, 3 ≤ (time k).tvSec
  width : ∀ i, 1000 ≤ (time (2 * i + 1)).toNs - (time (2 * i)).toNs ∧
    (time (2 * i + 1)).toNs - (time (2 * i)).toNs < 450000000
  gap : ∀ i, 555000000 ≤ (time (2 * i + 2)).toNs - (time (2 * i + 1)).toNs
  period : ∀ k, 900000000 ≤ (time (k + 2)).toNs - (time k).toNs ∧
    (time (k + 2)).toNs - (time k).toNs < 1100000000

namespace PulseTrain

variable (T : PulseTrain) {k : ℕ}

/-- What the kernel has captured after edge `k + 1`. -/
def info (k : ℕ) : PpsInfo :=
  if T.edge (k + 1) then ⟨T.time (k + 1), T.time k⟩ else ⟨T.time k, T.time (k + 1)⟩

theorem nsec (k : ℕ) : 0 ≤ (T.time k).tvNsec ∧ (T.time k).tvNsec < nsInSec :=
  ⟨(T.normal k).pos (by linarith [T.late k]), (T.normal k).upper⟩

/-- The time between two edges. -/
theorem step_bounds (k : ℕ) :
    1000 ≤ (T.time (k + 1)).toNs - (T.time k).toNs ∧
      if k % 2 = 0 then (T.time (k + 1)).toNs - (T.time k).toNs < 450000000
      else 555000000 ≤ (T.time (k + 1)).toNs - (T.time k).toNs := by
  rcases Nat.even_or_odd' k with ⟨i, rfl | rfl⟩
  · rw [if_pos (by omega)]
    exact T.width i
  · rw [if_neg (by omega)]
    have hgap := T.gap i
    exact ⟨by linarith, hgap⟩

/-- The edges come one after another. -/
theorem strictMono : StrictMono fun k => (T.time k).toNs :=
  strictMono_nat_of_lt_succ fun k => by linarith [(T.step_bounds k).1]

/-- So many seconds take so long at least. -/
theorem seconds_le (i n : ℕ) :
    n * 900000000 ≤ (T.time (2 * (i + n))).toNs - (T.time (2 * i)).toNs := by
  induction n with
  | zero => simp
  | succ n ih =>
    have hperiod := (T.period (2 * (i + n))).1
    rw [show 2 * (i + n) + 2 = 2 * (i + (n + 1)) by ring] at hperiod
    push_cast
    linarith

/-- The two last edges are told apart. -/
theorem ppsLastEdges_info (k : ℕ) :
    ppsLastEdges (T.info k) = ⟨T.time k, !T.edge (k + 1), T.time (k + 1), T.edge (k + 1)⟩ := by
  have hstep := (T.step_bounds k).1
  have hlate := T.late k
  have hnsec := T.nsec k
  have hnsec' := T.nsec (k + 1)
  simp only [Timespec.toNs, nsInSec] at hstep hnsec hnsec'
  have hlater : (T.time k).tvSec < (T.time (k + 1)).tvSec ∨
      (T.time k).tvSec = (T.time (k + 1)).tvSec ∧ (T.time k).tvNsec < (T.time (k + 1)).tvNsec := by
    omega
  rcases hlater with hsec | ⟨hsec, hns⟩ <;> cases hedge : T.edge (k + 1)
  · simp [info, hedge, ppsLastEdges, hsec, hsec.not_gt]
  · have hseen : 0 ≠ (T.time k).tvSec := by omega
    simp [info, hedge, ppsLastEdges, hsec, hseen]
  · simp [info, hedge, ppsLastEdges, hsec, hns.not_gt]
  · have hseen : 0 ≠ (T.time (k + 1)).tvSec := by omega
    simp [info, hedge, ppsLastEdges, hsec, hns, hseen]

/-! ### The capture of the kernel -/

/-- The thread has fetched edges `k` and `k + 1`. -/
structure OnEdge (m : PpsMonitor) (k : ℕ) : Prop where
  last : m.pulseKpps (T.edge (k + 1)) = T.time (k + 1)
  previous : m.pulseKpps (!T.edge (k + 1)) = T.time k
  state : m.stateLast = T.edge (k + 1)

/-- The thread has fetched no edge. -/
def NoEdge (m : PpsMonitor) : Prop := ∀ edge, m.pulseKpps edge = ⟨0, 0⟩

variable {T} {inner : InnerContext} {m : PpsMonitor}

/-- The variables once edges `k` and `k + 1` are fetched. -/
def fetched (T : PulseTrain) (m : PpsMonitor) (fixIn : TimedeltaT) (k : ℕ) : PpsMonitor :=
  { m with
    lastFixtime := fixIn
    pulseKpps := Function.update (Function.update m.pulseKpps (T.edge (k + 1)) (T.time (k + 1)))
      (!T.edge (k + 1)) (T.time k) }

/-- The edge that is found then. -/
def found (T : PulseTrain) (m : PpsMonitor) (k : ℕ) : PpsEdge where
  edge := T.edge (k + 1)
  clockTs := T.time (k + 1)
  cycle := ((T.time (k + 1)).toNs - (m.pulseKpps (T.edge (k + 1))).toNs).tdiv 1000
  duration := ((T.time (k + 1)).toNs - (T.time k).toNs).tdiv 1000

/-- A round when the kernel can wait. -/
theorem ppsRound_fetched (hcanwait : inner.ppsCanwait = true) (m : PpsMonitor) (tio : TioAnswer)
    (fixIn : TimedeltaT) (k : ℕ) :
    ppsRound inner m tio (.fetched fixIn (T.info k)) =
      ppsStageTwo (T.fetched { m with unchanged := ppsUnchanged m } fixIn k) (T.found m k)
        false := by
  simp [ppsRound, ppsStageOne, hcanwait, inner.handle_of_canwait hcanwait, ppsStageKpps,
    getEdgeRfc2783, ppsLastEdges_info, fetched, found, timespecDiffNs_eq]

/-- The next round knows these edges. -/
theorem onEdge_ppsStageTwo {e : PpsEdge} (fixIn : TimedeltaT) (ok : Bool)
    (hedge : e.edge = T.edge (k + 1)) :
    T.OnEdge (ppsStageTwo (T.fetched m fixIn k) e ok).1 k where
  last := by simp [ppsStageTwo, fetched]
  previous := by simp [ppsStageTwo, fetched]
  state := hedge

/-- The lengths of the next edge are those of its kind. -/
theorem ppsCategory_edge (T : PulseTrain) (k : ℕ) :
    ppsCategory (T.edge (k + 2)) (((T.time (k + 2)).toNs - (T.time k).toNs).tdiv 1000)
        (((T.time (k + 2)).toNs - (T.time (k + 1)).toNs).tdiv 1000) =
      if k % 2 = 0 then ("1Hz leading edge", true) else ("1Hz trailing edge", false) := by
  have hperiod := T.period k
  have hstep := T.step_bounds (k + 1)
  rw [show k + 1 + 1 = k + 2 from rfl] at hstep
  rw [Int.tdiv_eq_ediv_of_nonneg (by omega), Int.tdiv_eq_ediv_of_nonneg (by omega)]
  simp only [show (k + 1) % 2 = 0 ↔ ¬ k % 2 = 0 by omega] at hstep
  split_ifs at hstep ⊢ with hk
  · rw [ppsCategory, if_neg (by omega), if_neg (by omega), if_neg (by omega), if_neg (by omega),
      if_pos (by omega), if_neg (by omega), if_neg (by omega), if_neg (by omega)]
  · rw [ppsCategory, if_neg (by omega), if_neg (by omega), if_neg (by omega), if_neg (by omega),
      if_pos (by omega), if_neg (by omega), if_pos (by omega)]

/-- **The next edge**: a leading one is taken for the start of a second, a trailing one is not. -/
theorem ppsRound_onEdge (hcanwait : inner.ppsCanwait = true) (h : T.OnEdge m k) (tio : TioAnswer)
    (fixIn : TimedeltaT) :
    T.OnEdge (ppsRound inner m tio (.fetched fixIn (T.info (k + 1)))).1 (k + 1) ∧
      (ppsRound inner m tio (.fetched fixIn (T.info (k + 1)))).2 =
        if k % 2 = 0 then ppsJudge fixIn (T.time (k + 2)) true "1Hz leading edge"
        else ppsJudge fixIn (T.time (k + 2)) false "1Hz trailing edge" := by
  have hother : (!T.edge (k + 1)) = T.edge (k + 2) := (T.edge_succ (k + 1)).symm
  have hchanged : T.edge (k + 2) ≠ m.stateLast := by
    rw [h.state, ← hother]
    exact Bool.not_ne_self _
  have hlooked : ppsLooked (T.fetched { m with unchanged := ppsUnchanged m } fixIn (k + 1))
      (T.found m (k + 1)) := .inl hchanged
  have hnamed : ppsNamed (T.fetched { m with unchanged := ppsUnchanged m } fixIn (k + 1))
      (T.found m (k + 1)) =
        if k % 2 = 0 then ("1Hz leading edge", true) else ("1Hz trailing edge", false) := by
    rw [← ppsCategory_edge T k, ppsNamed, if_neg fun hsame => hchanged hsame.1, ← h.previous,
      hother]
    rfl
  rw [ppsRound_fetched hcanwait]
  refine ⟨onEdge_ppsStageTwo _ _ rfl, ?_⟩
  rw [ppsStageTwo, if_pos hlooked, hnamed]
  split_ifs <;> rfl

/-- The first edge fetched is not reported: its cycle is not known. -/
theorem ppsRound_first (hcanwait : inner.ppsCanwait = true) (hm : NoEdge m) (k : ℕ)
    (tio : TioAnswer) (fixIn : TimedeltaT) :
    T.OnEdge (ppsRound inner m tio (.fetched fixIn (T.info k))).1 k ∧
      (ppsRound inner m tio (.fetched fixIn (T.info k))).2.reported = none ∧
      (ppsRound inner m tio (.fetched fixIn (T.info k))).2.goesOn = true := by
  have hlate := T.late (k + 1)
  have hnsec := T.nsec (k + 1)
  have hcycle : 3000000 ≤ (T.found m k).cycle := by
    rw [found, hm]
    simp only [Timespec.toNs, nsInSec] at hnsec ⊢
    rw [Int.tdiv_eq_ediv_of_nonneg (by omega)]
    omega
  have hcategory : ∀ duration,
      ppsCategory (T.edge (k + 1)) (T.found m k).cycle duration
        = ("Too long for 0.5Hz", false) := by
    intro duration
    rw [ppsCategory, if_neg (by omega), if_neg (by omega), if_neg (by omega), if_neg (by omega),
      if_neg (by omega), if_neg (by omega), if_neg (by omega)]
  rw [ppsRound_fetched hcanwait]
  refine ⟨onEdge_ppsStageTwo _ _ rfl, ?_⟩
  have hnamed : ppsNamed (T.fetched { m with unchanged := ppsUnchanged m } fixIn k) (T.found m k)
      = ("Too long for 0.5Hz", false) := hcategory _
  rw [ppsStageTwo, hnamed]
  split_ifs
  · exact ⟨ppsJudge_false _, ppsJudge_goesOn _ _⟩
  · exact ⟨rfl, rfl⟩

/-- What the system answers while the edges of the train are fetched one by one, from edge
`k + 1` on. -/
def answers (T : PulseTrain) (k : ℕ) (tio : ℕ → TioAnswer) (fix : ℕ → TimedeltaT) (n : ℕ) :
    List (TioAnswer × KppsAnswer) :=
  (List.range n).map fun i => (tio i, .fetched (fix i) (T.info (k + i)))

/-- What is to be reported of edge `k + 1 + i`. -/
def due (T : PulseTrain) (k : ℕ) (fix : ℕ → TimedeltaT) (i : ℕ) : Option TimedeltaT :=
  if (k + 1 + i) % 2 = 0 ∧ 0 < (fix i).real.tvSec ∧
      Recent ((T.time (k + 1 + i)).toNs - (fix i).clock.toNs) then
    some ⟨⟨(fix i).real.tvSec + 1, 0⟩, T.time (k + 1 + i)⟩
  else none

/-- The next edge of the train, and what is due of it. -/
theorem reported_onEdge (hcanwait : inner.ppsCanwait = true) (h : T.OnEdge m k) (tio : TioAnswer)
    {fixIn : TimedeltaT} (hfix : fixIn.clock.Normal) :
    (ppsRound inner m tio (.fetched fixIn (T.info (k + 1)))).2.reported =
      (if k % 2 = 0 ∧ 0 < fixIn.real.tvSec ∧
          Recent ((T.time (k + 2)).toNs - fixIn.clock.toNs) then
        some ⟨⟨fixIn.real.tvSec + 1, 0⟩, T.time (k + 2)⟩
      else none) ∧
      (ppsRound inner m tio (.fetched fixIn (T.info (k + 1)))).2.goesOn = true := by
  rw [(ppsRound_onEdge hcanwait h tio fixIn).2]
  by_cases hk : k % 2 = 0
  · rw [if_pos hk, ppsJudge_reported hfix (T.normal _)]
    exact ⟨by simp [hk], ppsJudge_goesOn _ _⟩
  · rw [if_neg hk, ppsJudge_false]
    exact ⟨by simp [hk], ppsJudge_goesOn _ _⟩

/-- The run of the thread over the train. -/
theorem after_answers (hcanwait : inner.ppsCanwait = true) (k : ℕ) (tio : ℕ → TioAnswer)
    (fix : ℕ → TimedeltaT) (hfix : ∀ i, (fix i).clock.Normal) (n : ℕ) :
    let s := after (ppsStep inner) {} (T.answers k tio fix (n + 1))
    T.OnEdge s.monitor (k + n) ∧ s.running = true ∧
      s.outcomes.filterMap PpsOutcome.reported
        = (List.range n).filterMap fun i => T.due k fix (i + 1) := by
  induction n with
  | zero =>
    obtain ⟨honEdge, hreported, hgoesOn⟩ :=
      ppsRound_first (T := T) (m := {}) hcanwait (fun _ => rfl) k (tio 0) (fix 0)
    have hone : T.answers k tio fix (0 + 1) = [(tio 0, .fetched (fix 0) (T.info k))] := rfl
    simp only [hone, after_cons, after_nil, ppsStep_of_running (s := {}) rfl]
    refine ⟨honEdge, hgoesOn, ?_⟩
    simp [hreported]
  | succ n ih =>
    obtain ⟨honEdge, hrunning, houtcomes⟩ := ih
    have hnext := ppsRound_onEdge hcanwait honEdge (tio (n + 1)) (fix (n + 1))
    obtain ⟨hreported, hgoesOn⟩ := reported_onEdge hcanwait honEdge (tio (n + 1)) (hfix (n + 1))
    have hsplit : T.answers k tio fix (n + 1 + 1) = T.answers k tio fix (n + 1)
        ++ [(tio (n + 1), .fetched (fix (n + 1)) (T.info (k + n + 1)))] := by
      rw [answers, List.range_succ, List.map_append]
      rfl
    simp only [hsplit, after_append, after_cons, after_nil, ppsStep_of_running hrunning]
    refine ⟨hnext.1, hgoesOn, ?_⟩
    have hdue : T.due k fix (n + 1) =
        (ppsRound inner (after (ppsStep inner) {} (T.answers k tio fix (n + 1))).monitor
          (tio (n + 1)) (.fetched (fix (n + 1)) (T.info (k + n + 1)))).2.reported := by
      rw [hreported, due, show k + 1 + (n + 1) = k + n + 2 by omega, Nat.add_mod_right]
    rw [List.filterMap_append, houtcomes, List.range_succ, List.filterMap_append]
    simp only [List.filterMap_cons, List.filterMap_nil, hdue]

/-- **With the capture of the kernel exactly the leading edges are reported.** From the second edge
fetched on, wherever the train is, the pairs reported are those of the leading edges, each with the
second after the last fix, if there is a fix and it is recent; the trailing edges are not, nor is
the first edge fetched, and the thread does not end. -/
theorem reported_train (hcanwait : inner.ppsCanwait = true) (T : PulseTrain) (k : ℕ)
    (tio : ℕ → TioAnswer) (fix : ℕ → TimedeltaT) (hfix : ∀ i, (fix i).clock.Normal) (n : ℕ) :
    (after (ppsStep inner) {} (T.answers k tio fix (n + 1))).running = true ∧
      (after (ppsStep inner) {} (T.answers k tio fix (n + 1))).outcomes.filterMap
          PpsOutcome.reported
        = (List.range n).filterMap fun i => T.due k fix (i + 1) :=
  (after_answers hcanwait k tio fix hfix n).2

/-- The edges of a pulse of 100 ms each second. -/
def hertzTime (k : ℕ) : Timespec := ⟨10 + k / 2, k % 2 * 100000000⟩

theorem hertzTime_late (k : ℕ) : 3 ≤ (hertzTime k).tvSec := by
  simp only [hertzTime]
  omega

theorem hertzTime_normal (k : ℕ) : (hertzTime k).Normal := by
  constructor <;> simp only [hertzTime, nsInSec] <;> omega

theorem hertzTime_width (i : ℕ) :
    1000 ≤ (hertzTime (2 * i + 1)).toNs - (hertzTime (2 * i)).toNs ∧
      (hertzTime (2 * i + 1)).toNs - (hertzTime (2 * i)).toNs < 450000000 := by
  simp only [hertzTime, Timespec.toNs, nsInSec]
  push_cast
  omega

theorem hertzTime_gap (i : ℕ) :
    555000000 ≤ (hertzTime (2 * i + 2)).toNs - (hertzTime (2 * i + 1)).toNs := by
  simp only [hertzTime, Timespec.toNs, nsInSec]
  push_cast
  omega

theorem hertzTime_period (k : ℕ) :
    900000000 ≤ (hertzTime (k + 2)).toNs - (hertzTime k).toNs ∧
      (hertzTime (k + 2)).toNs - (hertzTime k).toNs < 1100000000 := by
  simp only [hertzTime, Timespec.toNs, nsInSec]
  push_cast
  omega

/-- A pulse of 100 ms each second. -/
def hertz : PulseTrain where
  time := hertzTime
  lead := true
  normal := hertzTime_normal
  late := hertzTime_late
  width := hertzTime_width
  gap := hertzTime_gap
  period := hertzTime_period

/-- A kernel that can wait. -/
def kernelWaits : InnerContext := ⟨true, true, true, fun _ => rfl⟩

theorem reported_train_hertz :
    (after (ppsStep kernelWaits) {} (hertz.answers 0 (fun _ => .failed)
        (fun i => ⟨⟨1000 + i / 2, 0⟩, ⟨10 + i / 2, 500000000⟩⟩) (3 + 1))).running = true ∧
      (after (ppsStep kernelWaits) {} (hertz.answers 0 (fun _ => .failed)
          (fun i => ⟨⟨1000 + i / 2, 0⟩, ⟨10 + i / 2, 500000000⟩⟩) (3 + 1))).outcomes.filterMap
          PpsOutcome.reported
        = (List.range 3).filterMap fun i =>
            hertz.due 0 (fun i => ⟨⟨1000 + i / 2, 0⟩, ⟨10 + i / 2, 500000000⟩⟩) (i + 1) :=
  reported_train rfl hertz 0 _ _ (fun i => by constructor <;> simp only [nsInSec] <;> omega) 3

/-- A timeout changes nothing of this. -/
theorem ppsRound_timeout (hcanwait : inner.ppsCanwait = true) (m : PpsMonitor) (tio : TioAnswer) :
    ppsRound inner m tio .timeout = ({ m with unchanged := ppsUnchanged m }, .again) := by
  simp [ppsRound, ppsStageOne, hcanwait, inner.handle_of_canwait hcanwait, ppsStageKpps,
    getEdgeRfc2783]

end PulseTrain

/-! ### The serial line -/

namespace EdgeTrain

variable {T : EdgeTrain} {inner : InnerContext} {m : PpsMonitor} {k : ℕ}

/-- The control lines after an edge. -/
def lines (T : EdgeTrain) (line k : ℕ) : ℕ := if T.edge k then line else 0

/-- The thread has waited for edge `k`. -/
structure OnLine (T : EdgeTrain) (line : ℕ) (m : PpsMonitor) (k : ℕ) : Prop where
  tio : m.stateLastTio = T.lines line k
  state : m.stateLast = T.edge k

variable {line : ℕ}

/-- The lines go up at one kind of edge and down at the other. -/
theorem lines_succ_iff (hline : 0 < line) (k : ℕ) :
    T.lines line (k + 1) > T.lines line k ↔ T.edge (k + 1) = true := by
  rw [lines, lines, edge_succ]
  cases T.edge k <;> simp [hline]

/-- **The next edge on a serial line** is judged by the fix, whichever kind it is. -/
theorem ppsRound_onLine (htty : inner.notATty = false) (hkernelpps : inner.kernelpps = false)
    (hline : 0 < line) (h : T.OnLine line m k) {fixIn : TimedeltaT} (hfix : fixIn.clock.Normal)
    (kpps : KppsAnswer) :
    let r := ppsRound inner m (.edge fixIn (T.time (k + 1)) (T.lines line (k + 1))) kpps
    T.OnLine line r.1 (k + 1) ∧ r.2.goesOn = true ∧
      r.2.reported =
        if 0 < fixIn.real.tvSec ∧ Recent ((T.time (k + 1)).toNs - fixIn.clock.toNs) then
          some ⟨⟨fixIn.real.tvSec + 1, 0⟩, T.time (k + 1)⟩
        else none := by
  have hedge : decide (T.lines line (k + 1) > m.stateLastTio) = T.edge (k + 1) := by
    rw [h.tio]
    exact (Bool.eq_iff_iff.mpr (decide_eq_true_iff.trans (lines_succ_iff hline k)))
  have hlooked : ppsLooked (serialMonitor m fixIn (T.time (k + 1)) (T.lines line (k + 1)))
      (serialEdge m (T.time (k + 1)) (T.lines line (k + 1))) := by
    refine .inl ?_
    simp only [serialEdge, serialMonitor, hedge, h.state, edge_succ]
    exact Bool.not_ne_self _
  intro r
  have hr : r.2 = ppsJudge fixIn (T.time (k + 1)) true "" :=
    (ppsRound_tio htty hkernelpps m fixIn _ _ kpps).trans (if_pos hlooked)
  have hmonitor : r.1 = (ppsStageTwo (serialMonitor m fixIn (T.time (k + 1))
      (T.lines line (k + 1))) (serialEdge m (T.time (k + 1)) (T.lines line (k + 1))) true).1 :=
    congrArg Prod.fst (ppsRound_serial htty hkernelpps m fixIn _ _ kpps)
  refine ⟨⟨?_, ?_⟩, ?_, ?_⟩
  · rw [hmonitor]
    rfl
  · rw [hmonitor]
    exact hedge
  · rw [hr]
    exact ppsJudge_goesOn _ _
  · rw [hr, ppsJudge_reported hfix (T.normal _)]
    simp

/-- The first edge waited for sets the state, whether or not it is looked at. -/
theorem ppsRound_firstOnLine (htty : inner.notATty = false) (hkernelpps : inner.kernelpps = false)
    (hline : 0 < line) (k : ℕ) (fixIn : TimedeltaT) (kpps : KppsAnswer) :
    let r := ppsRound inner {} (.edge fixIn (T.time k) (T.lines line k)) kpps
    T.OnLine line r.1 k ∧ r.2.goesOn = true := by
  have hedge : decide (T.lines line k > 0) = T.edge k := by
    rw [lines]
    cases T.edge k <;> simp [hline]
  intro r
  have hr : r = ppsStageTwo (serialMonitor {} fixIn (T.time k) (T.lines line k))
      (serialEdge {} (T.time k) (T.lines line k)) true :=
    ppsRound_serial htty hkernelpps {} fixIn _ _ kpps
  rw [hr]
  refine ⟨⟨rfl, hedge⟩, ?_⟩
  simp only [ppsStageTwo]
  split_ifs
  · exact ppsJudge_goesOn _ _
  · rfl

/-- What the system answers while the serial line shows the edges of the train from `k` on. -/
def tioAnswers (T : EdgeTrain) (line k : ℕ) (fix : ℕ → TimedeltaT) (kpps : ℕ → KppsAnswer)
    (n : ℕ) : List (TioAnswer × KppsAnswer) :=
  (List.range n).map fun i => (.edge (fix i) (T.time (k + i)) (T.lines line (k + i)), kpps i)

/-- **On a serial line alone every edge is reported**, the trailing ones and those of any lengths as
well: after the first edge waited for, each edge of the train is, with the second after the last
fix, if there is a fix and it is recent. -/
theorem reported_tio (htty : inner.notATty = false) (hkernelpps : inner.kernelpps = false)
    (T : EdgeTrain) (hline : 0 < line) (k : ℕ) (fix : ℕ → TimedeltaT)
    (hfix : ∀ i, (fix i).clock.Normal) (kpps : ℕ → KppsAnswer) (n : ℕ) :
    let s := after (ppsStep inner) {} (T.tioAnswers line k fix kpps (n + 1))
    s.running = true ∧
      s.outcomes.tail.map PpsOutcome.reported = (List.range n).map fun i =>
        if 0 < (fix (i + 1)).real.tvSec ∧
            Recent ((T.time (k + i + 1)).toNs - (fix (i + 1)).clock.toNs) then
          some ⟨⟨(fix (i + 1)).real.tvSec + 1, 0⟩, T.time (k + i + 1)⟩
        else none := by
  suffices h : let s := after (ppsStep inner) {} (T.tioAnswers line k fix kpps (n + 1))
      T.OnLine line s.monitor (k + n) ∧ s.running = true ∧ s.outcomes ≠ [] ∧
        s.outcomes.tail.map PpsOutcome.reported = (List.range n).map fun i =>
          if 0 < (fix (i + 1)).real.tvSec ∧
              Recent ((T.time (k + i + 1)).toNs - (fix (i + 1)).clock.toNs) then
            some ⟨⟨(fix (i + 1)).real.tvSec + 1, 0⟩, T.time (k + i + 1)⟩
          else none from ⟨h.2.1, h.2.2.2⟩
  induction n with
  | zero =>
    obtain ⟨honLine, hgoesOn⟩ :=
      ppsRound_firstOnLine (T := T) htty hkernelpps hline k (fix 0) (kpps 0)
    have hone : T.tioAnswers line k fix kpps (0 + 1)
        = [(.edge (fix 0) (T.time k) (T.lines line k), kpps 0)] := rfl
    simp only [hone, after_cons, after_nil, ppsStep_of_running (s := {}) rfl]
    exact ⟨honLine, hgoesOn, List.cons_ne_nil _ _, rfl⟩
  | succ n ih =>
    obtain ⟨honLine, hrunning, hsome, houtcomes⟩ := ih
    obtain ⟨hnext, hgoesOn, hreported⟩ :=
      ppsRound_onLine htty hkernelpps hline honLine (hfix (n + 1)) (kpps (n + 1))
    have hsplit : T.tioAnswers line k fix kpps (n + 1 + 1) = T.tioAnswers line k fix kpps (n + 1)
        ++ [(.edge (fix (n + 1)) (T.time (k + n + 1)) (T.lines line (k + n + 1)),
          kpps (n + 1))] := by
      rw [tioAnswers, List.range_succ, List.map_append]
      rfl
    simp only [hsplit, after_append, after_cons, after_nil, ppsStep_of_running hrunning]
    refine ⟨hnext, hgoesOn, List.append_ne_nil_of_left_ne_nil hsome _, ?_⟩
    rw [List.tail_append_of_ne_nil hsome, List.map_append, houtcomes, List.range_succ,
      List.map_append, List.map_singleton, List.map_singleton, hreported]

/-- A serial line without kernel support. -/
def serialLine : InnerContext := ⟨false, false, false, fun h => by cases h⟩

theorem reported_tio_hertz :
    let s := after (ppsStep serialLine) {} (PulseTrain.hertz.tioAnswers 64 0
      (fun i => ⟨⟨1000 + i / 2, 0⟩, ⟨9 + i / 2, 500000000⟩⟩) (fun _ => .timeout) (3 + 1))
    s.running = true ∧
      s.outcomes.tail.map PpsOutcome.reported = (List.range 3).map fun i =>
        if 0 < (1000 + ((i + 1 : ℕ) : ℤ) / 2) ∧
            Recent ((PulseTrain.hertz.time (0 + i + 1)).toNs
              - Timespec.toNs ⟨9 + ((i + 1 : ℕ) : ℤ) / 2, 500000000⟩) then
          some ⟨⟨1000 + ((i + 1 : ℕ) : ℤ) / 2 + 1, 0⟩, PulseTrain.hertz.time (0 + i + 1)⟩
        else none :=
  reported_tio rfl rfl PulseTrain.hertz.toEdgeTrain (by decide) 0
    (fun i => ⟨⟨1000 + i / 2, 0⟩, ⟨9 + i / 2, 500000000⟩⟩)
    (fun i => by constructor <;> simp only [nsInSec] <;> omega) (fun _ => .timeout) 3

end EdgeTrain

end Oscillatord
