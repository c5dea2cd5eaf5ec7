import Oscillatord.Library.CNumbers
import Oscillatord.Library.Runs

/-!
# The phasemeter

The phasemeter thread reads the external timestamps of the PTP clock, one per rising edge of the
GNSS pulse (index 0) and of the internal pulse (index 5), and pairs them. `phasemeterStep` is what
it does with one read: the two `do … while` loops that wait for a timestamp of either index are
the points `first` and `second` at which a read finds the thread, and each publication under the
mutex is returned as a snapshot of the shared structure.

A position of the stream is *accepted* when the thread is still reading there and the event is a
timestamp of one of the two pulses. The state of the thread before a position is determined by the
last accepted position before it (`phasemeterInv_threadAt`): the thread holds its timestamp, unless
a `BOTH_TIMESTAMPS` publication consumed it. What is published at a position then follows from one
step (`publishedAt_of_reading`).
-/

namespace Oscillatord

open StepRun CNumber

/-! ### External timestamps -/

/-- `EXTTS_INDEX_ART_INTERNAL_PPS`. -/
def exttsIndexArtInternalPps : ℤ := 5

/-- `EXTTS_INDEX_GNSS_PPS`. -/
def exttsIndexGnssPps : ℤ := 0

/-- `MILLISECONDS_500`. -/
def milliseconds500 : ℤ := 500000000

/-- `struct ptp_extts_event`, as the kernel delivers it. -/
structure PtpExttsEvent where
  sec : Int64
  nsec : UInt32
  index : UInt32
  deriving DecidableEq

/-- `struct external_timestamp`. -/
structure ExternalTimestamp where
  timestamp : ℤ
  index : ℤ
  deriving Repr, DecidableEq

/-- `read_extts`, with `none` for a read that fails or is cut short: the new index, and the new
timestamp where one is stored. The sum is computed unsigned and stored into an `int64_t`, the
unsigned index is returned as an `int`. -/
def readExtts (event : Option PtpExttsEvent) (ts : ExternalTimestamp) : ExternalTimestamp :=
  match event with
  | none => { ts with index := -1 }
  | some event =>
    if event.sec.toInt < 0 then { ts with index := -22 }
    else
      { timestamp :=
          toSigned 64 (toUnsigned 64 (event.sec.toInt * 1000000000 + event.nsec.toNat))
        index := toSigned 32 event.index.toNat }

/-- The loops that wait for a timestamp are left at one of these indexes. -/
def isPpsIndex (index : ℤ) : Prop :=
  index = exttsIndexArtInternalPps ∨ index = exttsIndexGnssPps

instance (index : ℤ) : Decidable (isPpsIndex index) :=
  inferInstanceAs (Decidable (_ ∨ _))

/-! ### The thread -/

/-- The status of the phasemeter. -/
inductive PhasemeterStatus
  | init
  | noGnssTimestamps
  | noArtInternalTimestamps
  | bothTimestamps
  deriving Repr, DecidableEq

/-- What `struct phasemeter` tells its reader; `phaseError` is an `int32_t`. -/
structure Phasemeter where
  status : PhasemeterStatus
  phaseError : ℤ
  deriving Repr, DecidableEq

/-- Where a read finds the thread: waiting for the first timestamp, waiting for the second one,
or not reading any more. -/
inductive PhasemeterPoint
  | first
  | second
  | closed
  deriving Repr, DecidableEq

/-- The thread and the structure it shares. -/
structure PhasemeterThread where
  ts1 : ExternalTimestamp
  ts2 : ExternalTimestamp
  stop : Bool
  point : PhasemeterPoint
  phasemeter : Phasemeter
  deriving Repr, DecidableEq

/-- One read, and the value of `phasemeter->stop` should the thread take the mutex after it. -/
structure PhasemeterEvent where
  read : Option PtpExttsEvent
  stop : Bool
  deriving DecidableEq

/-- The test of `while (!stop)`. -/
def whileNotStop (stop : Bool) : PhasemeterPoint := if stop then .closed else .second

/-- The thread before its first read: `phasemeter->stop` has been read, and each of the two
timestamps enabled or not. -/
def phasemeterStart (ts1 ts2 : ExternalTimestamp) (phasemeter : Phasemeter) (stop : Bool)
    (enableExtts : ℤ → Bool) : PhasemeterThread :=
  { ts1, ts2, stop, phasemeter
    point :=
      if !enableExtts exttsIndexArtInternalPps then .closed
      else if !enableExtts exttsIndexGnssPps then .closed
      else .first }

/-- The body of the loop once both timestamps are there, with what it publishes. -/
def phasemeterPair (thread : PhasemeterThread) (stop : Bool) :
    PhasemeterThread × Option Phasemeter :=
  if thread.ts1.index = exttsIndexArtInternalPps ∧ thread.ts1.index = thread.ts2.index then
    let phasemeter := { thread.phasemeter with status := .noGnssTimestamps }
    ({ thread with phasemeter, stop, ts1 := thread.ts2, point := whileNotStop stop },
      some phasemeter)
  else if thread.ts1.index = exttsIndexGnssPps ∧ thread.ts1.index = thread.ts2.index then
    let phasemeter := { thread.phasemeter with status := .noArtInternalTimestamps }
    ({ thread with phasemeter, stop, ts1 := thread.ts2, point := whileNotStop stop },
      some phasemeter)
  else
    let timestampDiff := toSigned 64 (thread.ts2.timestamp - thread.ts1.timestamp)
    let timestampDiff :=
      if thread.ts1.index = exttsIndexGnssPps then toSigned 64 (-timestampDiff)
      else timestampDiff
    -- More than half a second apart: the second timestamp may pair with the next one.
    if milliseconds500 < timestampDiff ∨ timestampDiff < -milliseconds500 then
      ({ thread with ts1 := thread.ts2, point := whileNotStop thread.stop }, none)
    else
      let phasemeter : Phasemeter :=
        { status := .bothTimestamps, phaseError := toSigned 32 timestampDiff }
      ({ thread with phasemeter, stop, point := .first }, some phasemeter)

/-- What the thread does with one read. -/
def phasemeterStep (thread : PhasemeterThread) (e : PhasemeterEvent) :
    PhasemeterThread × Option Phasemeter :=
  match thread.point with
  | .first =>
    let thread := { thread with ts1 := readExtts e.read thread.ts1 }
    if isPpsIndex thread.ts1.index then
      ({ thread with point := whileNotStop thread.stop }, none)
    else (thread, none)
  | .second =>
    let thread := { thread with ts2 := readExtts e.read thread.ts2 }
    if isPpsIndex thread.ts2.index then phasemeterPair thread e.stop else (thread, none)
  | .closed => (thread, none)

/-! ### Pulses -/

/-- The two pulses. -/
inductive Pps
  | gnss
  | artInternal
  deriving Repr, DecidableEq

/-- The index the PTP clock gives the timestamps of a pulse. -/
def Pps.index : Pps → ℤ
  | .gnss => exttsIndexGnssPps
  | .artInternal => exttsIndexArtInternalPps

/-- The status that reports the absence of a pulse. -/
def Pps.missing : Pps → PhasemeterStatus
  | .gnss => .noGnssTimestamps
  | .artInternal => .noArtInternalTimestamps

/-- A pulse and its time in nanoseconds. -/
structure Pulse where
  pps : Pps
  time : ℤ
  deriving Repr, DecidableEq

/-- How the thread holds a pulse. -/
def Pulse.stamp (pulse : Pulse) : ExternalTimestamp :=
  { timestamp := pulse.time, index := pulse.pps.index }

/-- The time the kernel gives, in nanoseconds. -/
def PtpExttsEvent.time (event : PtpExttsEvent) : ℤ :=
  event.sec.toInt * 1000000000 + event.nsec.toNat

/-- The pulse an event is a timestamp of: the seconds are not negative and the index is that of
one of the two. -/
def PtpExttsEvent.pulse (event : PtpExttsEvent) : Option Pulse :=
  if event.sec.toInt < 0 then none
  else if event.index = 0 then some ⟨.gnss, event.time⟩
  else if event.index = 5 then some ⟨.artInternal, event.time⟩
  else none

/-- The pulse a read delivers. -/
def PhasemeterEvent.pulse (e : PhasemeterEvent) : Option Pulse :=
  e.read.bind PtpExttsEvent.pulse

/-- Seconds and nanoseconds have a total that fits in an `int64_t`. -/
def PhasemeterEvent.Fits (e : PhasemeterEvent) : Prop :=
  ∀ event, e.read = some event → event.time < 2 ^ 63

/-- A time that an `int64_t` holds, not before the epoch. -/
def Pulse.Fits (pulse : Pulse) : Prop := 0 ≤ pulse.time ∧ pulse.time < 2 ^ 63

theorem isPpsIndex_index (pps : Pps) : isPpsIndex pps.index := by
  cases pps <;> decide

/-- The index is returned as an `int`: no large unsigned index becomes that of a pulse. -/
theorem toSigned_index_eq_iff (index : UInt32) {n : ℕ} (hn : n < 2 ^ 31) :
    toSigned 32 index.toNat = n ↔ index.toNat = n := by
  have hlt : index.toNat < 2 ^ 32 := index.toNat_lt
  simp only [toSigned, Int.bmod_def]
  omega

/-- The time of a pulse of the stream is one an `int64_t` holds. -/
theorem PhasemeterEvent.Fits.pulse {e : PhasemeterEvent} {pulse : Pulse} (hfits : e.Fits)
    (hpulse : e.pulse = some pulse) : pulse.Fits := by
  obtain ⟨event, hread, hpulse⟩ := Option.bind_eq_some_iff.mp hpulse
  have htime := hfits event hread
  simp only [PtpExttsEvent.pulse] at hpulse
  have hnonneg : ¬ event.sec.toInt < 0 → 0 ≤ event.time := by
    intro hsec
    simp only [PtpExttsEvent.time]
    omega
  split_ifs at hpulse with hsec h0 h5
  all_goals
    obtain rfl := Option.some.inj hpulse
    exact ⟨hnonneg hsec, htime⟩

/-- A timestamp of a pulse is read as it is. -/
theorem readExtts_of_pulse {e : PhasemeterEvent} {pulse : Pulse} (hfits : e.Fits)
    (hpulse : e.pulse = some pulse) (ts : ExternalTimestamp) :
    readExtts e.read ts = pulse.stamp := by
  obtain ⟨hnonneg, htime⟩ := hfits.pulse hpulse
  have hstored : toSigned 64 (toUnsigned 64 pulse.time) = pulse.time := by
    rw [toUnsigned, Int.emod_eq_of_lt hnonneg (by omega)]
    exact toSigned_eq_self (by omega) (by omega) htime
  obtain ⟨event, hread, hpulse⟩ := Option.bind_eq_some_iff.mp hpulse
  simp only [PtpExttsEvent.pulse] at hpulse
  split_ifs at hpulse with hsec h0 h5
  all_goals
    obtain rfl := Option.some.inj hpulse
    simp only [readExtts, hread, if_neg hsec]
  · have hindex := (toSigned_index_eq_iff event.index (n := 0) (by omega)).mpr (by simp [h0])
    exact congrArg₂ ExternalTimestamp.mk hstored hindex
  · have hindex := (toSigned_index_eq_iff event.index (n := 5) (by omega)).mpr (by simp [h5])
    exact congrArg₂ ExternalTimestamp.mk hstored hindex

/-- Every other read leaves a loop that waits for a timestamp where it is. -/
theorem not_isPpsIndex_of_pulse {e : PhasemeterEvent} (hpulse : e.pulse = none)
    (ts : ExternalTimestamp) : ¬ isPpsIndex (readExtts e.read ts).index := by
  rcases hread : e.read with _ | event
  · simp [readExtts, isPpsIndex, exttsIndexArtInternalPps, exttsIndexGnssPps]
  · have hevent : event.pulse = none := by simpa [PhasemeterEvent.pulse, hread] using hpulse
    simp only [PtpExttsEvent.pulse] at hevent
    split_ifs at hevent with hsec h0 h5
    · simp [readExtts, hsec, isPpsIndex, exttsIndexArtInternalPps, exttsIndexGnssPps]
    · have h0' := toSigned_index_eq_iff event.index (n := 0) (by omega)
      have h5' := toSigned_index_eq_iff event.index (n := 5) (by omega)
      simp only [readExtts, if_neg hsec, isPpsIndex, exttsIndexArtInternalPps,
        exttsIndexGnssPps]
      rintro (hindex | hindex)
      · exact h5 (UInt32.toNat_inj.mp (h5'.mp hindex))
      · exact h0 (UInt32.toNat_inj.mp (h0'.mp hindex))

/-! ### One pair -/

/-- What two consecutive pulses amount to: one of the two pulses was missed, they are more than
half a second apart, or they have a phase. -/
inductive Pairing
  | missed (pps : Pps)
  | apart
  | both (phase : ℤ)
  deriving Repr, DecidableEq

/-- The pairing of a GNSS pulse and an internal pulse. -/
def pairingOf (gnss internal : ℤ) : Pairing :=
  if |gnss - internal| ≤ milliseconds500 then .both (gnss - internal) else .apart

/-- The pairing of two consecutive pulses, in their order of arrival. -/
def pairing : Pulse → Pulse → Pairing
  | ⟨.artInternal, _⟩, ⟨.artInternal, _⟩ => .missed .gnss
  | ⟨.gnss, _⟩, ⟨.gnss, _⟩ => .missed .artInternal
  | ⟨.gnss, gnss⟩, ⟨.artInternal, internal⟩ => pairingOf gnss internal
  | ⟨.artInternal, internal⟩, ⟨.gnss, gnss⟩ => pairingOf gnss internal

/-- The thread after a pair. -/
def PhasemeterThread.afterPairing (thread : PhasemeterThread) (stop : Bool) :
    Pairing → PhasemeterThread × Option Phasemeter
  | .missed pps =>
    let phasemeter := { thread.phasemeter with status := pps.missing }
    ({ thread with phasemeter, stop, ts1 := thread.ts2, point := whileNotStop stop },
      some phasemeter)
  | .apart => ({ thread with ts1 := thread.ts2, point := whileNotStop thread.stop }, none)
  | .both phase =>
    let phasemeter : Phasemeter := { status := .bothTimestamps, phaseError := phase }
    ({ thread with phasemeter, stop, point := .first }, some phasemeter)

/-- The branch for two different pulses, its difference computed in 64 bits and stored in 32. -/
private theorem afterPairing_pairingOf (thread : PhasemeterThread) (stop : Bool)
    (gnss internal : ℤ) :
    (if milliseconds500 < gnss - internal ∨ gnss - internal < -milliseconds500 then
        ({ thread with ts1 := thread.ts2, point := whileNotStop thread.stop }, none)
      else
        ({ thread with
            phasemeter :=
              { status := .bothTimestamps, phaseError := toSigned 32 (gnss - internal) }
            stop, point := .first },
          some { status := .bothTimestamps, phaseError := toSigned 32 (gnss - internal) }))
      = thread.afterPairing stop (pairingOf gnss internal) := by
  have habs : |gnss - internal| ≤ milliseconds500
      ↔ ¬ (milliseconds500 < gnss - internal ∨ gnss - internal < -milliseconds500) := by
    rw [abs_le]
    omega
  by_cases hfar : milliseconds500 < gnss - internal ∨ gnss - internal < -milliseconds500
  · rw [if_pos hfar, pairingOf, if_neg (mt habs.mp (not_not.mpr hfar))]
    rfl
  · have h32 : toSigned 32 (gnss - internal) = gnss - internal := by
      rw [not_or, milliseconds500] at hfar
      exact toSigned_eq_self (by omega) (by omega) (by omega)
    rw [if_neg hfar, pairingOf, if_pos (habs.mpr hfar), h32]
    rfl

/-- **One pair.** The body of the loop computes the pairing of the two pulses it holds. -/
theorem phasemeterPair_eq (thread : PhasemeterThread) {p q : Pulse} (hp : p.Fits) (hq : q.Fits)
    (hts1 : thread.ts1 = p.stamp) (hts2 : thread.ts2 = q.stamp) (stop : Bool) :
    phasemeterPair thread stop = thread.afterPairing stop (pairing p q) := by
  have h64 : ∀ x y : ℤ, 0 ≤ x → x < 2 ^ 63 → 0 ≤ y → y < 2 ^ 63 → toSigned 64 (x - y) = x - y :=
    fun x y _ _ _ _ => toSigned_eq_self (by omega) (by omega) (by omega)
  obtain ⟨hp0, hp63⟩ := hp
  obtain ⟨hq0, hq63⟩ := hq
  obtain ⟨ts1, ts2, stop0, point, phasemeter⟩ := thread
  obtain rfl : ts1 = p.stamp := hts1
  obtain rfl : ts2 = q.stamp := hts2
  rcases p with ⟨_ | _, t⟩ <;> rcases q with ⟨_ | _, u⟩
  · rfl
  · -- The GNSS pulse came first: the difference is turned round.
    have hneg : toSigned 64 (-(u - t)) = t - u := by rw [neg_sub, h64 t u hp0 hp63 hq0 hq63]
    simp only [phasemeterPair, Pulse.stamp, Pps.index, exttsIndexGnssPps,
      exttsIndexArtInternalPps, OfNat.zero_ne_ofNat, and_false, if_false, if_true,
      h64 u t hq0 hq63 hp0 hp63, hneg]
    exact afterPairing_pairingOf ⟨_, _, stop0, point, phasemeter⟩ stop t u
  · simp only [phasemeterPair, Pulse.stamp, Pps.index, exttsIndexGnssPps,
      exttsIndexArtInternalPps, OfNat.ofNat_ne_zero, and_false, if_false,
      h64 u t hq0 hq63 hp0 hp63]
    exact afterPairing_pairingOf ⟨_, _, stop0, point, phasemeter⟩ stop u t
  · rfl

/-! ### A run of the thread -/

section Run

variable (thread : PhasemeterThread) (es : List PhasemeterEvent)

/-- The thread before event `k`. -/
def threadAt (k : ℕ) : PhasemeterThread := stateAt (fun s e => (phasemeterStep s e).1) thread es k

/-- What the thread publishes at event `k`. -/
def publishedAt (k : ℕ) : Option Phasemeter :=
  es[k]?.bind fun e => (phasemeterStep (threadAt thread es k) e).2

/-- The thread publishes this status at event `k`. -/
def PublishesAt (k : ℕ) (status : PhasemeterStatus) : Prop :=
  ∃ published, publishedAt thread es k = some published ∧ published.status = status

/-- The thread accepts this pulse at event `k`: it is still reading and the event is a timestamp
of the pulse. -/
def AcceptedAt (k : ℕ) (pulse : Pulse) : Prop :=
  ∃ e, es[k]? = some e ∧ (threadAt thread es k).point ≠ .closed ∧ e.pulse = some pulse

/-- The thread accepts the event `k`. -/
def Accepted (k : ℕ) : Prop := ∃ pulse, AcceptedAt thread es k pulse

/-- The events `i` and `j` take part in one `BOTH_TIMESTAMPS` publication. -/
def BothPair (i j : ℕ) : Prop :=
  Latest (Accepted thread es) j i ∧ Accepted thread es j ∧
    PublishesAt thread es j .bothTimestamps

/-- Two consecutive accepted pulses, the first not consumed by a `BOTH_TIMESTAMPS` publication. -/
structure Reading (i k : ℕ) (p q : Pulse) : Prop where
  latest : Latest (Accepted thread es) k i
  first : AcceptedAt thread es i p
  second : AcceptedAt thread es k q
  unconsumed : ¬ PublishesAt thread es i .bothTimestamps

/-- **The pairing law**, over the whole stream of events. -/
structure PhasemeterPairing : Prop where
  both : ∀ k published, publishedAt thread es k = some published →
    published.status = .bothTimestamps →
    ∃ i gnss internal, Latest (Accepted thread es) k i ∧
      ((AcceptedAt thread es i ⟨.gnss, gnss⟩ ∧ AcceptedAt thread es k ⟨.artInternal, internal⟩) ∨
        (AcceptedAt thread es i ⟨.artInternal, internal⟩ ∧
          AcceptedAt thread es k ⟨.gnss, gnss⟩)) ∧
      published.phaseError = gnss - internal ∧ |gnss - internal| ≤ milliseconds500
  once : ∀ i j i' j', BothPair thread es i j → BothPair thread es i' j' →
    i = i' ∨ i = j' ∨ j = i' ∨ j = j' → i = i' ∧ j = j'
  noGnss : ∀ k, PublishesAt thread es k .noGnssTimestamps ↔
    ∃ i t u, Reading thread es i k ⟨.artInternal, t⟩ ⟨.artInternal, u⟩
  noArtInternal : ∀ k, PublishesAt thread es k .noArtInternalTimestamps ↔
    ∃ i t u, Reading thread es i k ⟨.gnss, t⟩ ⟨.gnss, u⟩

/-- What the thread knows before event `k` of the events it has accepted: waiting for a second
timestamp it holds the last pulse, which nothing consumed; waiting for a first one, nothing but
consumed pulses. -/
structure PhasemeterInv (k : ℕ) : Prop where
  holding : (threadAt thread es k).point = .second →
    ∃ i pulse, Latest (Accepted thread es) k i ∧ AcceptedAt thread es i pulse ∧ pulse.Fits ∧
      ¬ PublishesAt thread es i .bothTimestamps ∧ (threadAt thread es k).ts1 = pulse.stamp
  waiting : (threadAt thread es k).point = .first →
    ∀ i, Latest (Accepted thread es) k i → PublishesAt thread es i .bothTimestamps

variable {thread es} {k : ℕ} {e : PhasemeterEvent}

theorem threadAt_succ (he : es[k]? = some e) :
    threadAt thread es (k + 1) = (phasemeterStep (threadAt thread es k) e).1 :=
  stateAt_succ he

theorem publishedAt_eq (he : es[k]? = some e) :
    publishedAt thread es k = (phasemeterStep (threadAt thread es k) e).2 := by
  rw [publishedAt, he]
  rfl

/-- A pulse is accepted at most once per event. -/
theorem AcceptedAt.unique {p q : Pulse} (hp : AcceptedAt thread es k p)
    (hq : AcceptedAt thread es k q) : p = q := by
  obtain ⟨e, he, -, hpulse⟩ := hp
  obtain ⟨e', he', -, hpulse'⟩ := hq
  rw [he] at he'
  obtain rfl := Option.some.inj he'
  exact Option.some.inj (hpulse.symm.trans hpulse')

/-- An event that is no timestamp of a pulse does not change where the thread is, nor the
timestamp it holds. -/
theorem phasemeterStep_of_not_pulse (hpulse : e.pulse = none) (s : PhasemeterThread) :
    (phasemeterStep s e).1.point = s.point ∧ (phasemeterStep s e).2 = none ∧
      (s.point = .second → (phasemeterStep s e).1.ts1 = s.ts1) := by
  have hno := not_isPpsIndex_of_pulse hpulse
  rcases hpoint : s.point with _ | _ | _
  · simp [phasemeterStep, hpoint, hno]
  · simp [phasemeterStep, hpoint, hno]
  · simp [phasemeterStep, hpoint]

/-- The first timestamp is kept and nothing is published. -/
theorem phasemeterStep_first {s : PhasemeterThread} {pulse : Pulse} (hpoint : s.point = .first)
    (hfits : e.Fits) (hpulse : e.pulse = some pulse) :
    phasemeterStep s e =
      ({ s with ts1 := pulse.stamp, point := whileNotStop s.stop }, none) := by
  have hread := readExtts_of_pulse hfits hpulse s.ts1
  have hindex : isPpsIndex pulse.stamp.index := isPpsIndex_index pulse.pps
  simp [phasemeterStep, hpoint, hread, hindex]

/-- With the second timestamp the thread does what the pairing of the two says. -/
theorem phasemeterStep_second {s : PhasemeterThread} {p q : Pulse} (hpoint : s.point = .second)
    (hts1 : s.ts1 = p.stamp) (hp : p.Fits) (hfits : e.Fits) (hpulse : e.pulse = some q) :
    phasemeterStep s e =
      { s with ts2 := q.stamp }.afterPairing e.stop (pairing p q) := by
  have hread := readExtts_of_pulse hfits hpulse s.ts2
  have hindex : isPpsIndex q.stamp.index := isPpsIndex_index q.pps
  have hpair : phasemeterPair { s with ts2 := q.stamp } e.stop
      = { s with ts2 := q.stamp }.afterPairing e.stop (pairing p q) :=
    phasemeterPair_eq { s with ts2 := q.stamp } hp (hfits.pulse hpulse) hts1 rfl e.stop
  rw [← hpair, phasemeterStep, hpoint]
  simp only [hread, if_pos hindex]

/-! ### What the thread knows of the events it has accepted -/

theorem not_accepted_of_not_pulse (he : es[k]? = some e) (hpulse : e.pulse = none) :
    ¬ Accepted thread es k := by
  rintro ⟨p, e', he', -, hp⟩
  rw [he] at he'
  obtain rfl := Option.some.inj he'
  rw [hpulse] at hp
  cases hp

/-- The thread holds the pulse it has just accepted. -/
theorem PhasemeterInv.of_held {pulse : Pulse} (haccepted : AcceptedAt thread es k pulse)
    (hfits : pulse.Fits) (hsilent : ¬ PublishesAt thread es k .bothTimestamps)
    (hts1 : (threadAt thread es (k + 1)).ts1 = pulse.stamp) {stop : Bool}
    (hpoint : (threadAt thread es (k + 1)).point = whileNotStop stop) :
    PhasemeterInv thread es (k + 1) := by
  refine ⟨fun _ => ⟨k, pulse, .of_holds ⟨pulse, haccepted⟩, haccepted, hfits, hsilent, hts1⟩,
    fun hfirst => ?_⟩
  rw [hpoint, whileNotStop] at hfirst
  split_ifs at hfirst

/-- A pulse that finds the thread waiting for a first timestamp is held and publishes nothing. -/
theorem PhasemeterInv.succ_first (he : es[k]? = some e) (hfits : e.Fits) {pulse : Pulse}
    (hpulse : e.pulse = some pulse) (hpoint : (threadAt thread es k).point = .first) :
    PhasemeterInv thread es (k + 1) := by
  have hstep := phasemeterStep_first hpoint hfits hpulse
  have hnext := (threadAt_succ he).trans (congrArg Prod.fst hstep)
  have hsilent : ¬ PublishesAt thread es k .bothTimestamps := by
    rintro ⟨published, hpublished, -⟩
    rw [publishedAt_eq he, hstep] at hpublished
    cases hpublished
  exact .of_held ⟨e, he, by simp [hpoint], hpulse⟩ (hfits.pulse hpulse) hsilent
    (congrArg PhasemeterThread.ts1 hnext) (congrArg PhasemeterThread.point hnext)

/-- A pulse that finds the thread waiting for a second timestamp is held, unless it completes a
`BOTH_TIMESTAMPS` publication. -/
theorem PhasemeterInv.succ_second (hinv : PhasemeterInv thread es k) (he : es[k]? = some e)
    (hfits : e.Fits) {pulse : Pulse} (hpulse : e.pulse = some pulse)
    (hpoint : (threadAt thread es k).point = .second) : PhasemeterInv thread es (k + 1) := by
  obtain ⟨i, p, -, -, hp, -, hts1⟩ := hinv.holding hpoint
  have hstep := phasemeterStep_second hpoint hts1 hp hfits hpulse
  have haccepted : AcceptedAt thread es k pulse := ⟨e, he, by simp [hpoint], hpulse⟩
  have hnext := (threadAt_succ he).trans (congrArg Prod.fst hstep)
  have hpublished := (publishedAt_eq he).trans (congrArg Prod.snd hstep)
  rcases hpair : pairing p pulse with pps | _ | phase <;> rw [hpair] at hnext hpublished
  · have hsilent : ¬ PublishesAt thread es k .bothTimestamps := by
      rintro ⟨published, hsome, hstatus⟩
      obtain rfl := Option.some.inj (hsome.symm.trans hpublished)
      cases pps <;> cases hstatus
    exact .of_held haccepted (hfits.pulse hpulse) hsilent
      (congrArg PhasemeterThread.ts1 hnext) (congrArg PhasemeterThread.point hnext)
  · have hsilent : ¬ PublishesAt thread es k .bothTimestamps := by
      rintro ⟨published, hsome, -⟩
      rw [hpublished] at hsome
      cases hsome
    exact .of_held haccepted (hfits.pulse hpulse) hsilent
      (congrArg PhasemeterThread.ts1 hnext) (congrArg PhasemeterThread.point hnext)
  · -- Both pulses are consumed: the last accepted event is the one that published.
    refine ⟨fun hsecond => ?_, fun _ i hlatest => ?_⟩
    · rw [hnext] at hsecond
      cases hsecond
    · obtain rfl := hlatest.unique (.of_holds ⟨pulse, haccepted⟩)
      exact ⟨_, hpublished, rfl⟩

/-- An event the thread does not accept changes nothing it knows. -/
theorem PhasemeterInv.succ_rejected (hinv : PhasemeterInv thread es k)
    (hrejected : ¬ Accepted thread es k)
    (hpoint : (threadAt thread es (k + 1)).point = (threadAt thread es k).point)
    (hts1 : (threadAt thread es k).point = .second →
      (threadAt thread es (k + 1)).ts1 = (threadAt thread es k).ts1) :
    PhasemeterInv thread es (k + 1) := by
  refine ⟨fun hsecond => ?_, fun hfirst i hlatest => ?_⟩
  · rw [hpoint] at hsecond
    obtain ⟨i, p, hlatest, haccepted, hp, hsilent, hheld⟩ := hinv.holding hsecond
    exact ⟨i, p, hlatest.succ hrejected, haccepted, hp, hsilent, (hts1 hsecond).trans hheld⟩
  · rw [hpoint] at hfirst
    exact hinv.waiting hfirst i (hlatest.of_succ hrejected)

/-- One event. -/
theorem PhasemeterInv.succ (hinv : PhasemeterInv thread es k) (he : es[k]? = some e)
    (hfits : e.Fits) : PhasemeterInv thread es (k + 1) := by
  rcases hpulse : e.pulse with _ | pulse
  · obtain ⟨hpoint, -, hts1⟩ := phasemeterStep_of_not_pulse hpulse (threadAt thread es k)
    rw [← threadAt_succ he] at hpoint hts1
    exact hinv.succ_rejected (not_accepted_of_not_pulse he hpulse) hpoint hts1
  · rcases hpoint : (threadAt thread es k).point with _ | _ | _
    · exact .succ_first he hfits hpulse hpoint
    · exact hinv.succ_second he hfits hpulse hpoint
    · have hclosed : threadAt thread es (k + 1) = threadAt thread es k := by
        rw [threadAt_succ he, phasemeterStep, hpoint]
      refine hinv.succ_rejected ?_ (by rw [hclosed]) fun _ => by rw [hclosed]
      rintro ⟨_, _, _, hopen, _⟩
      exact hopen hpoint

/-- **The invariant of the thread**, before every event of the stream. -/
theorem phasemeterInv_threadAt (hstart : thread.point ≠ .second) (hfits : ∀ e ∈ es, e.Fits) :
    ∀ k ≤ es.length, PhasemeterInv thread es k := by
  intro k
  induction k with
  | zero =>
    intro _
    exact ⟨fun hsecond => absurd hsecond hstart, fun _ i hlatest => absurd hlatest.lt i.not_lt_zero⟩
  | succ k ih =>
    intro hk
    have he : es[k]? = some es[k] := List.getElem?_eq_getElem hk
    exact (ih (Nat.le_of_succ_le hk)).succ he (hfits _ (List.getElem_mem hk))

/-! ### The pairing law -/

/-- What the thread publishes for two consecutive accepted pulses, the first not consumed, is what
their pairing says. -/
theorem publishedAt_of_reading (hinv : PhasemeterInv thread es k) (he : es[k]? = some e)
    (hfits : e.Fits) {i : ℕ} {p q : Pulse} (hreading : Reading thread es i k p q) :
    publishedAt thread es k =
      ({ threadAt thread es k with ts2 := q.stamp }.afterPairing e.stop (pairing p q)).2 := by
  obtain ⟨e', he', hopen, hpulse⟩ := hreading.second
  obtain rfl : e' = e := Option.some.inj (he'.symm.trans he)
  have hsecond : (threadAt thread es k).point = .second := by
    rcases hpoint : (threadAt thread es k).point with _ | _ | _
    · exact absurd (hinv.waiting hpoint i hreading.latest) hreading.unconsumed
    · rfl
    · exact absurd hpoint hopen
  obtain ⟨j, p', hlatest, haccepted, hp, -, hts1⟩ := hinv.holding hsecond
  obtain rfl := hlatest.unique hreading.latest
  obtain rfl := haccepted.unique hreading.first
  rw [publishedAt_eq he, phasemeterStep_second hsecond hts1 hp hfits hpulse]

/-- Only two consecutive accepted pulses, the first not consumed, make the thread publish. -/
theorem reading_of_publishedAt (hinv : PhasemeterInv thread es k) (he : es[k]? = some e)
    (hfits : e.Fits) {published : Phasemeter}
    (hpublished : publishedAt thread es k = some published) :
    ∃ i p q, Reading thread es i k p q := by
  rw [publishedAt_eq he] at hpublished
  rcases hpulse : e.pulse with _ | q
  · rw [(phasemeterStep_of_not_pulse hpulse _).2.1] at hpublished
    cases hpublished
  · rcases hpoint : (threadAt thread es k).point with _ | _ | _
    · rw [phasemeterStep_first hpoint hfits hpulse] at hpublished
      cases hpublished
    · obtain ⟨i, p, hlatest, haccepted, -, hsilent, -⟩ := hinv.holding hpoint
      exact ⟨i, p, q, hlatest, haccepted, ⟨e, he, by simp [hpoint], hpulse⟩, hsilent⟩
    · simp [phasemeterStep, hpoint] at hpublished

/-- What the publication for a pairing says: a missed pulse, or the phase of the two. -/
theorem afterPairing_snd {s : PhasemeterThread} {stop : Bool} {pairs : Pairing}
    {published : Phasemeter} (h : (s.afterPairing stop pairs).2 = some published) :
    (∃ pps, pairs = .missed pps ∧ published.status = pps.missing) ∨
      pairs = .both published.phaseError ∧ published.status = .bothTimestamps := by
  rcases pairs with pps | _ | phase
  · exact .inl ⟨pps, rfl, by rw [← Option.some.inj h]⟩
  · cases h
  · exact .inr (by simp [← Option.some.inj h])

/-- Two pulses have a phase exactly when they are of different kinds and at most half a second
apart; the phase is the GNSS time less the internal one, whichever came first. -/
theorem pairing_eq_both_iff {p q : Pulse} {phase : ℤ} :
    pairing p q = .both phase ↔
      ∃ gnss internal, ((p = ⟨.gnss, gnss⟩ ∧ q = ⟨.artInternal, internal⟩) ∨
        (p = ⟨.artInternal, internal⟩ ∧ q = ⟨.gnss, gnss⟩)) ∧
        phase = gnss - internal ∧ |gnss - internal| ≤ milliseconds500 := by
  have hof : ∀ gnss internal, pairingOf gnss internal = .both phase ↔
      phase = gnss - internal ∧ |gnss - internal| ≤ milliseconds500 := by
    intro gnss internal
    by_cases hnear : |gnss - internal| ≤ milliseconds500
    · simp [pairingOf, hnear, eq_comm]
    · simp [pairingOf, hnear]
  rcases p with ⟨_ | _, t⟩ <;> rcases q with ⟨_ | _, u⟩
  · simp [pairing]
  · rw [pairing, hof]
    simp
  · rw [pairing, hof]
    simp
  · simp [pairing]

/-- A pulse was missed exactly when both are of the other kind. -/
theorem pairing_eq_missed_iff {p q : Pulse} {pps : Pps} :
    pairing p q = .missed pps ↔ p.pps = q.pps ∧ p.pps ≠ pps := by
  have hof : ∀ gnss internal, pairingOf gnss internal ≠ .missed pps := by
    intro gnss internal
    rw [pairingOf]
    split_ifs <;> simp
  rcases p with ⟨_ | _, t⟩ <;> rcases q with ⟨_ | _, u⟩
  · cases pps <;> simp [pairing]
  · simpa [pairing] using hof t u
  · simpa [pairing] using hof u t
  · cases pps <;> simp [pairing]

/-- What a publication of a run says: a missed pulse, or the phase of two consecutive pulses, the
first not consumed. -/
theorem pairing_of_publishedAt (hinv : ∀ k ≤ es.length, PhasemeterInv thread es k)
    (hfits : ∀ e ∈ es, e.Fits) {k : ℕ} {published : Phasemeter}
    (hpublished : publishedAt thread es k = some published) :
    ∃ i p q, Reading thread es i k p q ∧
      ((∃ pps, pairing p q = .missed pps ∧ published.status = pps.missing) ∨
        pairing p q = .both published.phaseError ∧ published.status = .bothTimestamps) := by
  obtain ⟨e, he, -⟩ := Option.bind_eq_some_iff.mp hpublished
  have hk : k < es.length := (List.getElem?_eq_some_iff.mp he).1
  have hevent := hfits e (List.mem_of_getElem? he)
  obtain ⟨i, p, q, hreading⟩ := reading_of_publishedAt (hinv k hk.le) he hevent hpublished
  rw [publishedAt_of_reading (hinv k hk.le) he hevent hreading] at hpublished
  exact ⟨i, p, q, hreading, afterPairing_snd hpublished⟩

/-- The absence of a pulse is reported exactly when two consecutive accepted pulses, the first not
consumed, are both of the other kind. -/
theorem publishesAt_missing_iff (hinv : ∀ k ≤ es.length, PhasemeterInv thread es k)
    (hfits : ∀ e ∈ es, e.Fits) {pps other : Pps} (hother : other ≠ pps) (k : ℕ) :
    PublishesAt thread es k pps.missing ↔
      ∃ i t u, Reading thread es i k ⟨other, t⟩ ⟨other, u⟩ := by
  have hkinds : ∀ x : Pps, x ≠ pps ↔ x = other := by
    intro x
    cases x <;> cases pps <;> cases other <;> simp_all
  constructor
  · rintro ⟨published, hpublished, hstatus⟩
    obtain ⟨i, p, q, hreading, ⟨missed, hpairing, hmissing⟩ | ⟨-, hboth⟩⟩ :=
      pairing_of_publishedAt hinv hfits hpublished
    · obtain rfl : missed = pps := by
        rw [hstatus] at hmissing
        cases missed <;> cases pps <;> first | rfl | cases hmissing
      obtain ⟨hsame, hne⟩ := pairing_eq_missed_iff.mp hpairing
      obtain ⟨pps1, t⟩ := p
      obtain ⟨pps2, u⟩ := q
      obtain rfl : pps1 = pps2 := hsame
      obtain rfl := (hkinds pps1).mp hne
      exact ⟨i, t, u, hreading⟩
    · rw [hstatus] at hboth
      cases pps <;> cases hboth
  · rintro ⟨i, t, u, hreading⟩
    obtain ⟨e, he, -, -⟩ := hreading.second
    have hk : k < es.length := (List.getElem?_eq_some_iff.mp he).1
    have hpublished := publishedAt_of_reading (hinv k hk.le) he
      (hfits e (List.mem_of_getElem? he)) hreading
    have hpairing : pairing ⟨other, t⟩ ⟨other, u⟩ = .missed pps :=
      pairing_eq_missed_iff.mpr ⟨rfl, hother⟩
    rw [hpairing] at hpublished
    exact ⟨_, hpublished, rfl⟩

/-- A `BOTH_TIMESTAMPS` publication is for two consecutive accepted pulses, the first not
consumed, that have the phase it carries. -/
theorem reading_of_both (hinv : ∀ k ≤ es.length, PhasemeterInv thread es k)
    (hfits : ∀ e ∈ es, e.Fits) {published : Phasemeter}
    (hpublished : publishedAt thread es k = some published)
    (hstatus : published.status = .bothTimestamps) :
    ∃ i p q, Reading thread es i k p q ∧ pairing p q = .both published.phaseError := by
  obtain ⟨i, p, q, hreading, ⟨pps, -, hmissing⟩ | ⟨hpairing, -⟩⟩ :=
    pairing_of_publishedAt hinv hfits hpublished
  · rw [hstatus] at hmissing
    cases pps <;> cases hmissing
  · exact ⟨i, p, q, hreading, hpairing⟩

/-- The first event of a `BOTH_TIMESTAMPS` pair did not complete another one. -/
theorem BothPair.unconsumed (hinv : ∀ k ≤ es.length, PhasemeterInv thread es k)
    (hfits : ∀ e ∈ es, e.Fits) {i j : ℕ} (h : BothPair thread es i j) :
    ¬ PublishesAt thread es i .bothTimestamps := by
  obtain ⟨hlatest, -, published, hpublished, hstatus⟩ := h
  obtain ⟨i', p, q, hreading, -⟩ := reading_of_both hinv hfits hpublished hstatus
  obtain rfl := hlatest.unique hreading.latest
  exact hreading.unconsumed

end Run

/-- **Pairing of the timestamps.** Whatever the stream of events, with times that fit in 64 bits:
every phase published is the GNSS time less the internal time of two consecutive accepted pulses
of different kinds, at most half a second; no accepted event takes part in two such publications;
and the absence of a pulse is published exactly for two consecutive accepted pulses of the other
kind, the first not consumed. -/
theorem phasemeter_pairing (ts1 ts2 : ExternalTimestamp) (phasemeter : Phasemeter) (stop : Bool)
    (enableExtts : ℤ → Bool) (es : List PhasemeterEvent) (hfits : ∀ e ∈ es, e.Fits) :
    PhasemeterPairing (phasemeterStart ts1 ts2 phasemeter stop enableExtts) es := by
  have hstart : (phasemeterStart ts1 ts2 phasemeter stop enableExtts).point ≠ .second := by
    simp only [phasemeterStart]
    split_ifs <;> simp
  have hinv := phasemeterInv_threadAt hstart hfits
  constructor
  · intro k published hpublished hstatus
    obtain ⟨i, p, q, hreading, hpairing⟩ := reading_of_both hinv hfits hpublished hstatus
    obtain ⟨gnss, internal, horder, hphase, hnear⟩ := pairing_eq_both_iff.mp hpairing
    refine ⟨i, gnss, internal, hreading.latest, ?_, hphase, hnear⟩
    rcases horder with ⟨rfl, rfl⟩ | ⟨rfl, rfl⟩
    · exact .inl ⟨hreading.first, hreading.second⟩
    · exact .inr ⟨hreading.first, hreading.second⟩
  · intro i j i' j' h h' hshared
    have hfirst := h.unconsumed hinv hfits
    have hfirst' := h'.unconsumed hinv hfits
    obtain ⟨hlatest, hj, hboth⟩ := h
    obtain ⟨hlatest', hj', hboth'⟩ := h'
    -- a pulse that ended one pair does not begin another; the rest is that the first of two
    -- consecutive pulses determines the second, and conversely
    rcases hshared with rfl | rfl | rfl | rfl
    · exact ⟨rfl, hlatest.next_unique hlatest' hj hj'⟩
    · exact absurd hboth' hfirst
    · exact absurd hboth hfirst'
    · exact ⟨hlatest.unique hlatest', rfl⟩
  · exact publishesAt_missing_iff hinv hfits (show Pps.artInternal ≠ .gnss by simp)
  · exact publishesAt_missing_iff hinv hfits (show Pps.gnss ≠ .artInternal by simp)

/-- A timestamp as the kernel delivers it, while nobody stops the thread. -/
def pulseEvent (sec : Int64) (nsec index : UInt32) : PhasemeterEvent :=
  { read := some ⟨sec, nsec, index⟩, stop := false }

/-- Two internal pulses, a failed read, then a GNSS pulse 250 ns after the second of them. -/
def gnssAppears : List PhasemeterEvent :=
  [pulseEvent 1 0 5, pulseEvent 2 0 5, { read := none, stop := false }, pulseEvent 2 250 0]

/-- The stream obeys the law: the GNSS pulse is missed once, then there is a phase. -/
theorem phasemeter_pairing_gnssAppears :
    let thread := phasemeterStart ⟨0, 0⟩ ⟨0, 0⟩ ⟨.init, 0⟩ false fun _ => true
    PhasemeterPairing thread gnssAppears ∧
      publishedAt thread gnssAppears 1 = some ⟨.noGnssTimestamps, 0⟩ ∧
      publishedAt thread gnssAppears 3 = some ⟨.bothTimestamps, 250⟩ := by
  refine ⟨phasemeter_pairing _ _ _ _ _ gnssAppears ?_, by decide +kernel, by decide +kernel⟩
  have hfits : ∀ sec nsec index, (⟨sec, nsec, index⟩ : PtpExttsEvent).time < 2 ^ 63 →
      (pulseEvent sec nsec index).Fits := by
    intro sec nsec index htime event hread
    rw [← Option.some.inj hread]
    exact htime
  simp only [gnssAppears, List.forall_mem_cons, List.not_mem_nil, false_imp_iff, implies_true,
    and_true]
  refine ⟨hfits _ _ _ (by decide +kernel), hfits _ _ _ (by decide +kernel), ?_,
    hfits _ _ _ (by decide +kernel)⟩
  intro event hread
  cases hread

end Oscillatord
