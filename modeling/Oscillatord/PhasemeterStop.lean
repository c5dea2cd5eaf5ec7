import Oscillatord.Phasemeter

/-!
# Stopping the phasemeter

`phasemeter_stop` sets `phasemeter->stop` under the mutex and joins the thread. The thread tests a
copy of the flag, which it refreshes under the mutex, where it publishes. Two timestamps of
different pulses more than half a second apart end an iteration without a publication, and so
without a new copy.

`PhasemeterStopLaw` is what the stop should come to: the thread begins one more iteration of its
main loop at most, and has left it once three more timestamps are accepted. The law holds
throughout exactly the runs in which the iteration begun last before the bound does not end that
way (`phasemeterStopLaw_throughout_iff`).
-/

namespace Oscillatord

open StepRun CNumber

/-! ### The thread once the flag is set -/

/-- The timestamp a read makes, if it is that of a pulse. -/
def ppsStamp (read : Option PtpExttsEvent) : Option ExternalTimestamp :=
  let ts := readExtts read ⟨0, 0⟩
  if isPpsIndex ts.index then some ts else none

/-- The thread since `phasemeter->stop` was set: the iterations of the main loop it has begun, and
the timestamps it has accepted. -/
structure StoppingThread where
  thread : PhasemeterThread
  begun : ℕ
  accepted : ℕ
  deriving Repr, DecidableEq

/-- One more read, with the flag set should the thread take the mutex after it. -/
def stoppingStep (s : StoppingThread) (read : Option PtpExttsEvent) : StoppingThread :=
  let thread := (phasemeterStep s.thread { read, stop := true }).1
  if s.thread.point = .closed ∨ ppsStamp read = none then { s with thread }
  else
    { thread
      begun := if thread.point = .second then s.begun + 1 else s.begun
      accepted := s.accepted + 1 }

/-- The thread when the flag is set, after these reads. -/
def threadAtStop (start : PhasemeterThread) (reads : List (Option PtpExttsEvent)) :
    StoppingThread where
  thread := after (fun thread read => (phasemeterStep thread { read, stop := false }).1) start reads
  begun := 0
  accepted := 0

/-- **The law of the stop.** -/
structure PhasemeterStopLaw (s : StoppingThread) : Prop where
  once : s.begun ≤ 1
  joined : 3 ≤ s.accepted → s.thread.point = .closed

/-- The comparison of two timestamps of different pulses. -/
def FarApart (ts1 ts2 : ExternalTimestamp) : Prop :=
  ts1.index ≠ ts2.index ∧
    (milliseconds500 < toSigned 64 (ts2.timestamp - ts1.timestamp) ∨
      toSigned 64 (ts2.timestamp - ts1.timestamp) < -milliseconds500)

instance (ts1 ts2 : ExternalTimestamp) : Decidable (FarApart ts1 ts2) :=
  inferInstanceAs (Decidable (_ ∧ _))

/-- What the law needs of the timestamps that are accepted once the flag is set: those of the
iteration that has to read the flag are not too far apart. The iteration the flag finds waiting for
its second timestamp may end without reading it, the next one may not. -/
def StopsInTime (thread : PhasemeterThread) : List ExternalTimestamp → Prop
  | q₁ :: q₂ :: _ =>
    match thread.point with
    | .first => thread.stop = true ∨ ¬ FarApart q₁ q₂
    | .second => FarApart thread.ts1 q₁ → ¬ FarApart q₁ q₂
    | .closed => True
  | _ => True

/-! ### One read -/

variable {s : StoppingThread} {read : Option PtpExttsEvent} {q : ExternalTimestamp}
  {reads : List (Option PtpExttsEvent)}

/-- What a read of a timestamp makes does not depend on the timestamp before. -/
theorem readExtts_eq_of_isPpsIndex {ts : ExternalTimestamp}
    (h : isPpsIndex (readExtts read ts).index) (ts' : ExternalTimestamp) :
    readExtts read ts' = readExtts read ts := by
  have hneg : ∀ n : ℤ, n < 0 → ¬ isPpsIndex n := by
    rintro n hn (rfl | rfl) <;> exact absurd hn (by decide)
  cases read with
  | none => exact absurd h (hneg _ (by simp [readExtts]))
  | some event =>
    by_cases hsec : event.sec.toInt < 0
    · exact absurd h (hneg _ (by simp [readExtts, hsec]))
    · simp only [readExtts, if_neg hsec]

theorem readExtts_of_ppsStamp (h : ppsStamp read = some q) (ts : ExternalTimestamp) :
    readExtts read ts = q ∧ isPpsIndex q.index := by
  simp only [ppsStamp] at h
  split_ifs at h with hindex
  obtain rfl := Option.some.inj h
  exact ⟨readExtts_eq_of_isPpsIndex hindex ts, hindex⟩

theorem not_isPpsIndex_of_ppsStamp (h : ppsStamp read = none) (ts : ExternalTimestamp) :
    ¬ isPpsIndex (readExtts read ts).index := by
  intro hindex
  rw [ppsStamp, readExtts_eq_of_isPpsIndex hindex, if_pos hindex] at h
  cases h

/-- What the law sees of a thread, and the timestamp it holds. -/
structure StoppingThread.Like (s s' : StoppingThread) : Prop where
  begun : s'.begun = s.begun
  accepted : s'.accepted = s.accepted
  point : s'.thread.point = s.thread.point
  stop : s'.thread.stop = s.thread.stop
  held : s.thread.point = .second → s'.thread.ts1 = s.thread.ts1

/-- A read that is no timestamp of a pulse changes nothing of that. -/
theorem stoppingStep_of_none (h : ppsStamp read = none) : s.Like (stoppingStep s read) := by
  have hno := not_isPpsIndex_of_ppsStamp h
  rw [stoppingStep, if_pos (.inr h)]
  rcases hpoint : s.thread.point with _ | _ | _ <;>
    exact ⟨rfl, rfl, by simp [phasemeterStep, hpoint, hno], by simp [phasemeterStep, hpoint, hno],
      by simp [phasemeterStep, hpoint, hno]⟩

theorem stoppingStep_closed (hpoint : s.thread.point = .closed) (read : Option PtpExttsEvent) :
    stoppingStep s read = s := by
  simp [stoppingStep, phasemeterStep, hpoint]

/-- The first timestamp ends the loop, or begins an iteration. -/
theorem stoppingStep_first (hpoint : s.thread.point = .first) (h : ppsStamp read = some q) :
    stoppingStep s read =
      { thread := { s.thread with ts1 := q, point := whileNotStop s.thread.stop }
        begun := if s.thread.stop then s.begun else s.begun + 1
        accepted := s.accepted + 1 } := by
  obtain ⟨hread, hindex⟩ := readExtts_of_ppsStamp h s.thread.ts1
  simp only [stoppingStep, phasemeterStep, hpoint, hread, h, hindex, if_true, reduceCtorEq,
    or_self, if_false, whileNotStop]
  cases s.thread.stop <;> rfl

/-- The sign the difference is given does not bring the timestamps nearer. -/
theorem far_signed_iff (ts1 : ExternalTimestamp) (x : ℤ) :
    (milliseconds500 < (if ts1.index = exttsIndexGnssPps then toSigned 64 (-toSigned 64 x)
        else toSigned 64 x) ∨
      (if ts1.index = exttsIndexGnssPps then toSigned 64 (-toSigned 64 x)
        else toSigned 64 x) < -milliseconds500) ↔
      (milliseconds500 < toSigned 64 x ∨ toSigned 64 x < -milliseconds500) := by
  split_ifs
  · simp only [toSigned, milliseconds500, Int.bmod_def]
    omega
  · rfl

/-- The body of the loop on timestamps that are too far apart. -/
theorem phasemeterPair_of_far {thread : PhasemeterThread} (h : FarApart thread.ts1 thread.ts2)
    (stop : Bool) :
    (phasemeterPair thread stop).1 =
      { thread with ts1 := thread.ts2, point := whileNotStop thread.stop } := by
  obtain ⟨hne, hfar⟩ := h
  simp only [phasemeterPair, far_signed_iff, if_pos hfar, if_neg fun hsame => hne (And.right hsame)]

/-- The body of the loop on any others reads the flag. -/
theorem phasemeterPair_of_near {thread : PhasemeterThread} (hts1 : isPpsIndex thread.ts1.index)
    (h : ¬ FarApart thread.ts1 thread.ts2) (stop : Bool) :
    (phasemeterPair thread stop).1.stop = stop ∧
      ((phasemeterPair thread stop).1.point = whileNotStop stop ∨
        (phasemeterPair thread stop).1.point = .first) := by
  by_cases hsame : thread.ts1.index = thread.ts2.index
  · rcases hts1 with hts1 | hts1
    · rw [phasemeterPair, if_pos ⟨hts1, hsame⟩]
      exact ⟨rfl, .inl rfl⟩
    · have hne : thread.ts1.index ≠ exttsIndexArtInternalPps := by rw [hts1]; decide
      rw [phasemeterPair, if_neg fun h => hne h.1, if_pos ⟨hts1, hsame⟩]
      exact ⟨rfl, .inl rfl⟩
  · have hnear : ¬ (milliseconds500 < toSigned 64 (thread.ts2.timestamp - thread.ts1.timestamp) ∨
        toSigned 64 (thread.ts2.timestamp - thread.ts1.timestamp) < -milliseconds500) :=
      fun hfar => h ⟨hsame, hfar⟩
    simp only [phasemeterPair, far_signed_iff, if_neg hnear,
      if_neg fun hand => hsame (And.right hand), true_and, or_true]

/-- The second timestamp has the body of the loop done. -/
theorem stoppingStep_second (hpoint : s.thread.point = .second) (h : ppsStamp read = some q) :
    stoppingStep s read =
      { thread := (phasemeterPair { s.thread with ts2 := q } true).1
        begun := if (phasemeterPair { s.thread with ts2 := q } true).1.point = .second
          then s.begun + 1 else s.begun
        accepted := s.accepted + 1 } := by
  obtain ⟨hread, hindex⟩ := readExtts_of_ppsStamp h s.thread.ts2
  simp only [stoppingStep, phasemeterStep, hpoint, hread, h, hindex, if_true, reduceCtorEq,
    or_self, if_false]

/-- Timestamps that are too far apart begin the next iteration. -/
theorem stoppingStep_far (hpoint : s.thread.point = .second) (hstop : s.thread.stop = false)
    (h : ppsStamp read = some q) (hfar : FarApart s.thread.ts1 q) :
    stoppingStep s read =
      { thread := { s.thread with ts1 := q, ts2 := q }
        begun := s.begun + 1
        accepted := s.accepted + 1 } := by
  have hpair : (phasemeterPair { s.thread with ts2 := q } true).1
      = { s.thread with ts1 := q, ts2 := q } := by
    rw [phasemeterPair_of_far hfar]
    simp only [hstop, whileNotStop, hpoint, Bool.false_eq_true, if_false]
  rw [stoppingStep_second hpoint h, hpair, if_pos hpoint]

/-- Any others have the thread leave the loop, or read the first timestamp of an iteration it will
not begin. -/
theorem stoppingStep_near (hpoint : s.thread.point = .second)
    (hheld : isPpsIndex s.thread.ts1.index) (h : ppsStamp read = some q)
    (hnear : ¬ FarApart s.thread.ts1 q) :
    (stoppingStep s read).begun = s.begun ∧ (stoppingStep s read).accepted = s.accepted + 1 ∧
      (stoppingStep s read).thread.stop = true ∧ (stoppingStep s read).thread.point ≠ .second := by
  obtain ⟨hstop, hleft⟩ := @phasemeterPair_of_near { s.thread with ts2 := q } hheld hnear true
  have hne : (phasemeterPair { s.thread with ts2 := q } true).1.point ≠ .second := by
    rcases hleft with hleft | hleft <;> rw [hleft] <;> decide
  rw [stoppingStep_second hpoint h, if_neg hne]
  exact ⟨rfl, rfl, hstop, hne⟩

/-! ### Runs -/

/-- A thread that has left the loop obeys the law from then on. -/
theorem throughout_of_closed (hbegun : s.begun ≤ 1) (hpoint : s.thread.point = .closed) :
    Throughout stoppingStep PhasemeterStopLaw s reads := by
  induction reads with
  | nil => exact throughout_nil.mpr ⟨hbegun, fun _ => hpoint⟩
  | cons read reads ih =>
    rw [throughout_cons, stoppingStep_closed hpoint]
    exact ⟨⟨hbegun, fun _ => hpoint⟩, ih⟩

/-- A thread that has read the flag leaves the loop with the next timestamp. -/
theorem throughout_of_stop (hbegun : s.begun ≤ 1) (haccepted : s.accepted ≤ 2)
    (hpoint : s.thread.point ≠ .second) (hstop : s.thread.stop = true) :
    Throughout stoppingStep PhasemeterStopLaw s reads := by
  cases hfirst : s.thread.point with
  | second => exact absurd hfirst hpoint
  | closed => exact throughout_of_closed hbegun hfirst
  | first =>
    induction reads generalizing s with
    | nil => exact throughout_nil.mpr ⟨hbegun, fun h => absurd h (by omega)⟩
    | cons read reads ih =>
      refine throughout_cons.mpr ⟨⟨hbegun, fun h => absurd h (by omega)⟩, ?_⟩
      cases hstamp : ppsStamp read with
      | none =>
        have hlike := stoppingStep_of_none (s := s) hstamp
        refine ih ?_ ?_ ?_ (hlike.stop.trans hstop) (hlike.point.trans hfirst)
        · rwa [hlike.begun]
        · rwa [hlike.accepted]
        · rwa [hlike.point]
      | some q =>
        rw [stoppingStep_first hfirst hstamp, hstop]
        exact throughout_of_closed hbegun rfl

/-- In the iteration that was begun with the flag set, the timestamps may not be too far apart. -/
theorem throughout_second_iff (hbegun : s.begun = 1) (haccepted : s.accepted ≤ 1)
    (hpoint : s.thread.point = .second) (hstop : s.thread.stop = false)
    (hheld : isPpsIndex s.thread.ts1.index) :
    Throughout stoppingStep PhasemeterStopLaw s reads ↔
      ∀ q ∈ (reads.filterMap ppsStamp).head?, ¬ FarApart s.thread.ts1 q := by
  induction reads generalizing s with
  | nil =>
    rw [throughout_nil]
    exact iff_of_true ⟨hbegun.le, fun h => absurd h (by omega)⟩ (by simp)
  | cons read reads ih =>
    rw [throughout_cons, and_iff_right ⟨hbegun.le, fun h => absurd h (by omega)⟩]
    cases hstamp : ppsStamp read with
    | none =>
      have hlike := stoppingStep_of_none (s := s) hstamp
      have hts1 := hlike.held hpoint
      rw [List.filterMap_cons_none hstamp, ← hts1]
      refine ih (hlike.begun.trans hbegun) ?_ (hlike.point.trans hpoint) (hlike.stop.trans hstop) ?_
      · rwa [hlike.accepted]
      · rwa [hts1]
    | some q =>
      rw [List.filterMap_cons_some hstamp, List.head?_cons]
      simp only [Option.mem_some_iff, forall_eq']
      constructor
      · intro h hfar
        have honce := (h [] List.nil_prefix).once
        rw [after_nil, stoppingStep_far hpoint hstop hstamp hfar, hbegun] at honce
        exact absurd honce (Nat.not_succ_le_self 1)
      · intro hnear
        obtain ⟨hbegun', haccepted', hstop', hpoint'⟩ :=
          stoppingStep_near hpoint hheld hstamp hnear
        exact throughout_of_stop (by omega) (by omega) hpoint' hstop'

/-- A thread that waits for a second timestamp has not read a set flag, and holds the first. -/
def PhasemeterThread.HoldsFirst (thread : PhasemeterThread) : Prop :=
  thread.point = .second → thread.stop = false ∧ isPpsIndex thread.ts1.index

theorem StoppingThread.Like.holdsFirst {s' : StoppingThread} (h : s.Like s')
    (hs : s.thread.HoldsFirst) : s'.thread.HoldsFirst := by
  intro hpoint
  rw [h.point] at hpoint
  rw [h.stop, h.held hpoint]
  exact hs hpoint

theorem StoppingThread.Like.stopsInTime_iff {s' : StoppingThread} (h : s.Like s')
    (stamps : List ExternalTimestamp) :
    StopsInTime s'.thread stamps ↔ StopsInTime s.thread stamps := by
  match stamps with
  | [] => exact Iff.rfl
  | [q] => exact Iff.rfl
  | q₁ :: q₂ :: rest =>
    simp only [StopsInTime, h.point, h.stop]
    cases hpoint : s.thread.point with
    | first => exact Iff.rfl
    | second => rw [h.held hpoint]
    | closed => exact Iff.rfl

theorem stopsInTime_cons (thread : PhasemeterThread) (q : ExternalTimestamp)
    (stamps : List ExternalTimestamp) :
    StopsInTime thread (q :: stamps) ↔ ∀ q₂ ∈ stamps.head?, StopsInTime thread [q, q₂] := by
  cases stamps with
  | nil => simp [StopsInTime]
  | cons q₂ stamps => simp [StopsInTime]

/-- From the moment the flag is set. -/
theorem throughout_stop_iff (hbegun : s.begun = 0) (haccepted : s.accepted = 0)
    (hreading : s.thread.HoldsFirst) :
    Throughout stoppingStep PhasemeterStopLaw s reads ↔
      StopsInTime s.thread (reads.filterMap ppsStamp) := by
  induction reads generalizing s with
  | nil =>
    rw [throughout_nil]
    exact iff_of_true ⟨by omega, fun h => absurd h (by omega)⟩ trivial
  | cons read reads ih =>
    rw [throughout_cons, and_iff_right ⟨by omega, fun h => absurd h (by omega)⟩]
    cases hstamp : ppsStamp read with
    | none =>
      have hlike := stoppingStep_of_none (s := s) hstamp
      rw [List.filterMap_cons_none hstamp, ← hlike.stopsInTime_iff]
      exact ih (hlike.begun.trans hbegun) (hlike.accepted.trans haccepted)
        (hlike.holdsFirst hreading)
    | some q =>
      obtain ⟨-, hindex⟩ := readExtts_of_ppsStamp hstamp ⟨0, 0⟩
      rw [List.filterMap_cons_some hstamp, stopsInTime_cons]
      cases hpoint : s.thread.point with
      | closed =>
        rw [stoppingStep_closed hpoint]
        exact iff_of_true (throughout_of_closed (by omega) hpoint) (by simp [StopsInTime, hpoint])
      | first =>
        rw [stoppingStep_first hpoint hstamp]
        cases hstop : s.thread.stop with
        | true =>
          refine iff_of_true (throughout_of_closed ?_ rfl) (by simp [StopsInTime, hpoint, hstop])
          exact hbegun.le.trans (by decide)
        | false =>
          let next : StoppingThread :=
            { thread := { s.thread with ts1 := q, point := .second }
              begun := s.begun + 1
              accepted := s.accepted + 1 }
          refine (throughout_second_iff (s := next) ?_ ?_ rfl hstop hindex).trans ?_
          · exact congrArg (· + 1) hbegun
          · exact (congrArg (· + 1) haccepted).le
          · simp [next, StopsInTime, hpoint, hstop]
      | second =>
        obtain ⟨hstop, hheld⟩ := hreading hpoint
        by_cases hfar : FarApart s.thread.ts1 q
        · rw [stoppingStep_far hpoint hstop hstamp hfar]
          let next : StoppingThread :=
            { thread := { s.thread with ts1 := q, ts2 := q }
              begun := s.begun + 1
              accepted := s.accepted + 1 }
          refine (throughout_second_iff (s := next) ?_ ?_ hpoint hstop hindex).trans ?_
          · exact congrArg (· + 1) hbegun
          · exact (congrArg (· + 1) haccepted).le
          · simp [next, StopsInTime, hpoint, hfar]
        · obtain ⟨hbegun', haccepted', hstop', hpoint'⟩ :=
            stoppingStep_near hpoint hheld hstamp hfar
          exact iff_of_true (throughout_of_stop (by omega) (by omega) hpoint' hstop')
            (by simp [StopsInTime, hpoint, hfar])

/-! ### Until the flag is set -/

/-- An iteration begins with a flag that was not set, and with the second timestamp of the one
before as its first. -/
theorem phasemeterPair_second {thread : PhasemeterThread} {stop : Bool}
    (h : (phasemeterPair thread stop).1.point = .second) :
    (phasemeterPair thread stop).1.ts1 = thread.ts2 ∧
      ((phasemeterPair thread stop).1.stop = false) := by
  have hclear : ∀ {stop : Bool}, whileNotStop stop = .second → stop = false := by
    intro stop
    cases stop <;> simp [whileNotStop]
  simp only [phasemeterPair, far_signed_iff] at h ⊢
  split_ifs at h ⊢
  any_goals exact ⟨rfl, hclear h⟩

theorem PhasemeterThread.HoldsFirst.phasemeterStep {thread : PhasemeterThread}
    (h : thread.HoldsFirst) (e : PhasemeterEvent) : (phasemeterStep thread e).1.HoldsFirst := by
  intro hsecond
  cases hpoint : thread.point with
  | closed => simp [Oscillatord.phasemeterStep, hpoint] at hsecond
  | first =>
    by_cases hindex : isPpsIndex (readExtts e.read thread.ts1).index
    · cases hstop : thread.stop with
      | true => simp [Oscillatord.phasemeterStep, hpoint, hindex, whileNotStop, hstop] at hsecond
      | false => simp [Oscillatord.phasemeterStep, hpoint, hindex, hstop]
    · simp [Oscillatord.phasemeterStep, hpoint, hindex] at hsecond
  | second =>
    by_cases hindex : isPpsIndex (readExtts e.read thread.ts2).index
    · simp only [Oscillatord.phasemeterStep, hpoint, hindex, if_true] at hsecond ⊢
      obtain ⟨hts1, hstop⟩ := phasemeterPair_second hsecond
      rw [hts1]
      exact ⟨hstop, hindex⟩
    · simp only [Oscillatord.phasemeterStep, hpoint, hindex, if_false]
      exact h hpoint

theorem holdsFirst_threadAtStop {start : PhasemeterThread} (hstart : start.point ≠ .second)
    (before : List (Option PtpExttsEvent)) : (threadAtStop start before).thread.HoldsFirst :=
  after_induction (fun h => absurd h hstart) fun _ _ h => h.phasemeterStep _

/-- **Stopping the phasemeter.** -/
theorem phasemeterStopLaw_throughout_iff (ts1 ts2 : ExternalTimestamp) (phasemeter : Phasemeter)
    (stop : Bool) (enableExtts : ℤ → Bool) (before reads : List (Option PtpExttsEvent)) :
    Throughout stoppingStep PhasemeterStopLaw
        (threadAtStop (phasemeterStart ts1 ts2 phasemeter stop enableExtts) before) reads ↔
      StopsInTime (threadAtStop (phasemeterStart ts1 ts2 phasemeter stop enableExtts) before).thread
        (reads.filterMap ppsStamp) := by
  refine throughout_stop_iff rfl rfl (holdsFirst_threadAtStop ?_ before)
  simp only [phasemeterStart]
  split_ifs <;> simp

/-- The flag is set once the thread holds a GNSS pulse, and the pulses go on coming alternately,
600 ms apart. -/
theorem phasemeterStopLaw_fails_far_apart :
    ¬ Throughout stoppingStep PhasemeterStopLaw
        (threadAtStop (phasemeterStart ⟨0, 0⟩ ⟨0, 0⟩ ⟨.init, 0⟩ false fun _ => true)
          [some ⟨1, 0, 0⟩])
        [some ⟨1, 600000000, 5⟩, some ⟨2, 200000000, 0⟩, some ⟨2, 800000000, 5⟩] := by
  intro h
  exact absurd h.last.once (by decide +kernel)

end Oscillatord
