import Oscillatord.Gnss.Thread
import Oscillatord.Library.ConditionWait
import Oscillatord.Phasemeter

/-!
# The readers that wait for a publication

`get_phase_error` and `gnss_get_epoch_data` take the mutex of their producer, wait once for its
condition variable and return what they then find. Here `phasemeter_thread`, `gnss_thread` and the
two readers take their steps in any order; `pthread_cond_wait` may return without a signal, and a
reader that was signalled may have to wait for the mutex while its producer goes on.

The law (`ReadersLaw`) holds in every run in which the waits end with a signal and nothing
unsignalled happens to the GNSS data between the signal and the return
(`readersLaw_throughout`). The third part of it, that the status and the phase error of a reading
with both timestamps belong together, holds in every run (`phaseCoherent_throughout`):
`phasemeter_thread` writes the phase error with that status and at no other time.
-/

namespace Oscillatord

open StepRun ConditionWait

/-! ### The two producers -/

/-- What `get_phase_error` returns, from the structure it finds once it holds the mutex. -/
def getPhaseError (thread : PhasemeterThread) : Phasemeter := thread.phasemeter

/-- A read of `phasemeter_thread`, with whether it signals `cond`. -/
def phasemeterSignals (thread : PhasemeterThread) (e : PhasemeterEvent) : PhasemeterThread × Bool :=
  ((phasemeterStep thread e).1, (phasemeterStep thread e).2.isSome)

/-- An iteration of `gnss_thread`, with whether it signals `cond_data`. -/
def gnssSignals (host : Host) (session : GpsDeviceT) (e : GnssEvent) : GpsDeviceT × Bool :=
  ((gnssThreadStep host session e).1,
    decide (GnssSignal.condData ∈ (gnssThreadStep host session e).2))

/-- The body of the loop writes the shared structure only to publish it. -/
theorem phasemeter_phasemeterPair {thread : PhasemeterThread} {stop : Bool}
    (h : (phasemeterPair thread stop).2 = none) :
    (phasemeterPair thread stop).1.phasemeter = thread.phasemeter := by
  unfold phasemeterPair at h ⊢
  dsimp only at h ⊢
  split_ifs at h ⊢ <;> rfl

/-- `phasemeter_thread` changes the shared structure at its publications only. -/
theorem quiet_phasemeterSignals : Quiet phasemeterSignals getPhaseError := by
  intro thread e hquiet
  have hnone : (phasemeterStep thread e).2 = none := by
    simpa [phasemeterSignals] using hquiet
  simp only [phasemeterSignals, getPhaseError]
  revert hnone
  unfold phasemeterStep
  cases thread.point with
  | first =>
    intro _
    dsimp only
    split <;> rfl
  | second =>
    dsimp only
    split
    · exact phasemeter_phasemeterPair
    · exact fun _ => rfl
  | closed => exact fun _ => rfl

/-! ### Runs -/

/-- The two producers and their readers. -/
structure ReadersState where
  phase : Cell PhasemeterThread Phasemeter
  gnss : Cell GpsDeviceT EpochData

/-- A step of one of the producers or of its reader. -/
inductive ReadersEvent
  | phase (e : CellEvent PhasemeterEvent)
  | gnss (e : CellEvent GnssEvent)

/-- One step. -/
def readersStep (host : Host) (s : ReadersState) : ReadersEvent → ReadersState
  | .phase e => { s with phase := cellStep phasemeterSignals getPhaseError s.phase e }
  | .gnss e => { s with gnss := cellStep (gnssSignals host) gnssGetEpochData s.gnss e }

/-- The threads are started and nobody has called. -/
def readersStart (thread : PhasemeterThread) (session : GpsDeviceT) : ReadersState :=
  { phase := Cell.start thread, gnss := Cell.start session }

/-- The status and the phase error of every reading with both timestamps are those of the
publication it delivers. -/
def PhaseCoherent (s : ReadersState) : Prop :=
  ∀ d ∈ s.phase.deliveries, d.value.status = .bothTimestamps →
    s.phase.published[d.upTo - 1]? = some d.value

/-- **The law of the waiting readers**: every call delivers a publication made after it began
waiting, no two readings with both timestamps are of one publication, and the parts of such a
reading belong together. -/
structure ReadersLaw (s : ReadersState) : Prop where
  phase : ∀ d ∈ s.phase.deliveries, Fresh s.phase.published d
  gnss : ∀ d ∈ s.gnss.deliveries, Fresh s.gnss.published d
  distinct : s.phase.deliveries.Pairwise fun d d' =>
    d.value.status = .bothTimestamps → d'.value.status = .bothTimestamps → d.upTo ≠ d'.upTo
  coherent : PhaseCoherent s

/-- The waits end with a signal, and between the signal and the return of `gnss_get_epoch_data`
no message changes what it returns without a signal of its own. -/
def WaitsSignalled (host : Host) (s : ReadersState) : ReadersEvent → Prop
  | .phase e => e = .wakes → ∀ since, s.phase.reader ≠ .waiting since
  | .gnss e => Signalled (gnssSignals host) gnssGetEpochData s.gnss e

variable (host : Host) (ts1 ts2 : ExternalTimestamp) (phaseError : ℤ) (stop : Bool)
  (enableExtts : ℤ → Bool) (session : GpsDeviceT) (bypassSurvey : Bool) (es : List ReadersEvent)

/-- The phasemeter and its thread after `phasemeter_init`, whatever `malloc` has left in
`phase_error`, and the session after `gnss_init`. -/
def readersInit : ReadersState :=
  readersStart (phasemeterStart ts1 ts2 ⟨.init, phaseError⟩ stop enableExtts)
    (gnssInitSession session bypassSurvey)

variable {host} {s : ReadersState} {e : ReadersEvent}

/-- Whatever ends the waits, a reading with both timestamps is one publication. -/
theorem phaseCoherent_of_known {initial : Phasemeter} (hinitial : initial.status = .init)
    (h : KnownValue getPhaseError initial s.phase) : PhaseCoherent s := by
  intro d hd hboth
  refine (h.known d hd).resolve_left fun heq => ?_
  rw [heq, hinitial] at hboth
  cases hboth

theorem known_readersStep {initial : Phasemeter} (h : KnownValue getPhaseError initial s.phase) :
    KnownValue getPhaseError initial (readersStep host s e).phase := by
  cases e with
  | phase e => exact h.next quiet_phasemeterSignals e
  | gnss e => exact h

/-- In every run, whatever ends the waits, the status and the phase error of a reading with both
timestamps are those of one publication. -/
theorem phaseCoherent_throughout :
    Throughout (readersStep host) PhaseCoherent
      (readersInit ts1 ts2 phaseError stop enableExtts session bypassSurvey) es := by
  intro pre _
  have hstart : KnownValue getPhaseError ⟨.init, phaseError⟩
      (readersInit ts1 ts2 phaseError stop enableExtts session bypassSurvey).phase :=
    ⟨nofun, .inl rfl, nofun⟩
  have hknown : KnownValue getPhaseError ⟨.init, phaseError⟩ (after (readersStep host)
      (readersInit ts1 ts2 phaseError stop enableExtts session bypassSurvey) pre).phase :=
    after_induction
      (P := fun s : ReadersState => KnownValue getPhaseError ⟨.init, phaseError⟩ s.phase)
      hstart fun _ _ h => known_readersStep h
  exact phaseCoherent_of_known rfl hknown

/-- What the runs keep in which the waits end with a signal. -/
structure ReadersInv (s : ReadersState) : Prop where
  phase : CellInv getPhaseError s.phase
  gnss : CellInv gnssGetEpochData s.gnss

theorem ReadersInv.next (h : ReadersInv s) (hwaits : WaitsSignalled host s e) :
    ReadersInv (readersStep host s e) := by
  cases e with
  | phase e =>
    have hsignalled : Signalled phasemeterSignals getPhaseError s.phase e := by
      cases e with
      | wakes => exact hwaits rfl
      | produce e => exact fun _ _ => quiet_phasemeterSignals _ e
      | calls | returns => trivial
    exact ⟨h.phase.next hsignalled, h.gnss⟩
  | gnss e => exact ⟨h.phase, h.gnss.next hwaits⟩

theorem ReadersInv.law (h : ReadersInv s) (hcoherent : PhaseCoherent s) : ReadersLaw s where
  phase := h.phase.fresh
  gnss := h.gnss.fresh
  distinct := by
    have hdistinct := h.phase.ordered.distinct fun d hd => (h.phase.fresh d hd).since
    exact hdistinct.imp fun hne _ _ => hne
  coherent := hcoherent

/-- **Freshness of the waiting readers.** In every interleaving of the two producers and of the
calls in which the waits end with a signal and the GNSS data stand still between the signal and the
return, the law holds in every state reached. -/
theorem readersLaw_throughout
    (h : EachStep (readersStep host) (WaitsSignalled host)
      (readersInit ts1 ts2 phaseError stop enableExtts session bypassSurvey) es) :
    Throughout (readersStep host) ReadersLaw
      (readersInit ts1 ts2 phaseError stop enableExtts session bypassSurvey) es := by
  have hinv : Throughout (readersStep host) ReadersInv
      (readersInit ts1 ts2 phaseError stop enableExtts session bypassSurvey) es :=
    throughout_of_eachStep ⟨cellInv_start _, cellInv_start _⟩
      (fun _ _ hinv hwaits => hinv.next hwaits) h
  have hcoherent : Throughout (readersStep host) PhaseCoherent
      (readersInit ts1 ts2 phaseError stop enableExtts session bypassSurvey) es :=
    phaseCoherent_throughout ts1 ts2 phaseError stop enableExtts session bypassSurvey es
  exact fun pre hpre => (hinv pre hpre).law (hcoherent pre hpre)

/-- A daemon that has just started, in UTC. -/
def readersZero : ReadersState :=
  readersInit ⟨0, 0⟩ ⟨0, 0⟩ 0 false (fun _ => true) sessionZero false

/-- Each reader calls once and is signalled: by the second of two pulses, and by a timeout. -/
def signalledOnce : List ReadersEvent :=
  [.phase .calls, .phase (.produce (pulseEvent 1 0 5)), .phase (.produce (pulseEvent 1 250 0)),
    .phase .returns, .gnss .calls, .gnss (.produce .timeout), .gnss .returns]

theorem eachStep_signalledOnce :
    EachStep (readersStep hostUtc) (WaitsSignalled hostUtc) readersZero signalledOnce := by
  simp [signalledOnce, WaitsSignalled, Signalled, gnssSignals, gnssThreadStep]

/-- Both calls deliver the publication they have waited for. -/
theorem readersLaw_signalledOnce :
    Throughout (readersStep hostUtc) ReadersLaw readersZero signalledOnce :=
  readersLaw_throughout ⟨0, 0⟩ ⟨0, 0⟩ 0 false (fun _ => true) sessionZero false signalledOnce
    eachStep_signalledOnce

/-- A reading with both timestamps, then a call whose wait ends without a signal. -/
def spuriousWakeup : List ReadersEvent :=
  [.phase .calls, .phase (.produce (pulseEvent 1 0 5)), .phase (.produce (pulseEvent 1 250 0)),
    .phase .returns, .phase .calls, .phase .wakes, .phase .returns]

/-- The second call returns the publication of the first once more. -/
theorem readersLaw_fails_spurious_wakeup :
    ¬ Throughout (readersStep hostUtc) ReadersLaw readersZero spuriousWakeup := by
  intro h
  exact absurd h.last.distinct (by decide +kernel)

end Oscillatord
