import Oscillatord.Gnss.Session
import Oscillatord.Library.Runs

/-!
# The GNSS thread and the validity of its reference

`gnssThreadStep` is what one iteration of `gnss_thread` does to the session while it holds
`mutex_data`, with the condition variables it signals: a message completes an epoch or is
analysed by its class and id, and a serial timeout resets the navigation data. A run is any
sequence of such iterations, from the session `gnss_init` prepares.

The flag `valid` is what `gnss_get_epoch_data` and `gnss_get_fix_info` hand to the rest of the
daemon. The law it ought to obey is `ValidityLaw`, stated on a session observed together with
the last epoch that nothing has invalidated since. A step keeps the law unless it is an epoch
without a fix that finds `valid` set: that branch clears `fix` and `fixOk` and forgets `valid`
(`validityLaw_observedStep_iff`). So the law holds throughout exactly the runs without such an
epoch (`validityLaw_throughout_iff`).
-/

namespace Oscillatord

open StepRun CNumber

/-! ### The thread -/

/-- The condition variables of `struct gnss`. -/
inductive GnssSignal
  | condData
  | condTime
  deriving Repr, DecidableEq

/-- What one iteration of the thread is given: a message, with the epoch it completes if
`epochCollect` says so, or the expiry of the receive timeout. -/
inductive GnssEvent
  | message (msg : ParserMsgT) (collected : Option EpochT)
  | timeout
  deriving Repr, DecidableEq

/-- The session `gnss_init` prepares from the one it is given. -/
def gnssInitSession (session : GpsDeviceT) (bypassSurvey : Bool) : GpsDeviceT :=
  { gnssResetSessionNavigationData session with
    antennaStatus := 5
    antennaPower := 4
    surveyCompleted := false
    bypassSurvey := bypassSurvey }

/-- The branch of `gnss_thread` for a completed epoch. -/
def gnssThreadEpoch (host : Host) (session : GpsDeviceT) (epoch : EpochT) :
    GpsDeviceT × List GnssSignal :=
  let session := { session with satellitesCount := gnssGetSatellites epoch }
  let session :=
    if epoch.haveFix then
      let fixOk := epoch.fixOk && decide (numSatMin < session.satellitesCount)
      { session with
        lastFixUtcTime := { session.lastFixUtcTime with tvSec := gnssGetUtcTime host epoch }
        fix := epoch.fix
        fixOk := fixOk
        valid := decide (epochFixTime ≤ epoch.fix) && fixOk }
    else { session with fix := noFix, fixOk := false }
  let session := { session with
    positionAccuracy := if epoch.havePos then epoch.posAcc else -1
    timeAccuracy := if epoch.haveTime then epoch.timeAcc else -1 }
  (session, .condData :: if session.taiTimeSet then [.condTime] else [])

/-- The class byte of a frame (`UBX_CLSID`). -/
def ubxClsId (msg : ParserMsgT) : UInt8 := loadByte msg.data 2

/-- The id byte of a frame (`UBX_MSGID`). -/
def ubxMsgId (msg : ParserMsgT) : UInt8 := loadByte msg.data 3

/-- The message is dispatched as UBX-MON-RF and leaves the antenna power off. -/
def antennaOff (session : GpsDeviceT) (msg : ParserMsgT) : Bool :=
  ubxClsId msg = 0x0a ∧ ubxMsgId msg = 0x38 ∧ (gnssGetAntennaData session msg).antennaPower = 0

/-- The branch of `gnss_thread` for a message that completes no epoch. -/
def gnssThreadAnalyze (session : GpsDeviceT) (msg : ParserMsgT) :
    GpsDeviceT × List GnssSignal :=
  if ubxClsId msg = 0x0a ∧ ubxMsgId msg = 0x38 then
    let session := gnssGetAntennaData session msg
    -- With the antenna off no navigation message comes any more: the data are reset here.
    if session.antennaPower = 0 then (gnssResetSessionNavigationData session, [.condData])
    else (session, [])
  else if ubxClsId msg = 0x01 ∧ ubxMsgId msg = 0x26 then (gnssParseUbxNavTimels session msg, [])
  else if ubxClsId msg = 0x0d ∧ ubxMsgId msg = 0x01 then (gnssParseUbxTimTp session msg, [])
  else if ubxClsId msg = 0x0d ∧ ubxMsgId msg = 0x04 then
    if !session.surveyCompleted && !session.bypassSurvey then
      match gnssParseUbxTimSvin msg with
      | .completed => ({ session with surveyCompleted := true }, [])
      | _ => (session, [])
    else (session, [])
  else (session, [])

/-- One iteration of `gnss_thread` under `mutex_data`. -/
def gnssThreadStep (host : Host) (session : GpsDeviceT) :
    GnssEvent → GpsDeviceT × List GnssSignal
  | .message _ (some epoch) => gnssThreadEpoch host session epoch
  | .message msg none => gnssThreadAnalyze session msg
  | .timeout => (gnssResetSessionNavigationData session, [.condData])

/-- What `gnss_get_epoch_data` delivers. -/
structure EpochData where
  valid : Bool
  survey : Bool
  qErr : ℤ
  deriving Repr, DecidableEq

/-- `gnss_get_epoch_data`, from the session it finds once it holds `mutex_data`. -/
def gnssGetEpochData (session : GpsDeviceT) : EpochData :=
  { valid := session.valid
    survey := session.surveyCompleted
    qErr := session.context.qErrLastEpoch }

/-- `gnss_get_fix_info`: the validity flag and the time of the last fix. -/
def gnssGetFixInfo (session : GpsDeviceT) : Bool × Timespec :=
  (session.valid, session.lastFixUtcTime)

/-! ### The parsers leave the navigation data alone -/

/-- The navigation fields of a session: `valid`, `fix` and `fixOk`. -/
def GpsDeviceT.navigation (session : GpsDeviceT) : Bool × ℤ × Bool :=
  (session.valid, session.fix, session.fixOk)

theorem navigation_gnssParseUbxNavTimels (session : GpsDeviceT) (msg : ParserMsgT) :
    (gnssParseUbxNavTimels session msg).navigation = session.navigation := by
  simp only [gnssParseUbxNavTimels]
  split
  · split <;> rfl
  · rfl

@[simp] theorem navigation_storeTimTp (session : GpsDeviceT) (taiTime qErr : ℤ) :
    (session.storeTimTp taiTime qErr).navigation = session.navigation := rfl

theorem navigation_gnssParseUbxTimTp (session : GpsDeviceT) (msg : ParserMsgT) :
    (gnssParseUbxTimTp session msg).navigation = session.navigation := by
  simp only [gnssParseUbxTimTp]
  split
  · generalize timTpOffset _ _ _ = offset
    cases offset with
    | none => rfl
    | some offset => exact navigation_storeTimTp ..
  · rfl

theorem navigation_gnssGetAntennaData (session : GpsDeviceT) (msg : ParserMsgT) :
    (gnssGetAntennaData session msg).navigation = session.navigation := by
  simp only [gnssGetAntennaData]
  split <;> rfl

/-- A message that completes no epoch resets the navigation data when it leaves the antenna off,
and does not touch them otherwise. -/
theorem navigation_gnssThreadAnalyze (session : GpsDeviceT) (msg : ParserMsgT) :
    (gnssThreadAnalyze session msg).1.navigation =
      if antennaOff session msg then (false, noFix, false) else session.navigation := by
  by_cases hrf : ubxClsId msg = 0x0a ∧ ubxMsgId msg = 0x38
  · by_cases hoff : (gnssGetAntennaData session msg).antennaPower = 0
    · simp [gnssThreadAnalyze, antennaOff, hrf, hoff, GpsDeviceT.navigation,
        gnssResetSessionNavigationData]
    · simpa [gnssThreadAnalyze, antennaOff, hrf, hoff] using
        navigation_gnssGetAntennaData session msg
  · have hno : antennaOff session msg = false :=
      decide_eq_false fun h => hrf ⟨h.1, h.2.1⟩
    simp only [gnssThreadAnalyze, if_neg hrf, hno, Bool.false_eq_true, if_false]
    split_ifs
    · exact navigation_gnssParseUbxNavTimels session msg
    · exact navigation_gnssParseUbxTimTp session msg
    · cases gnssParseUbxTimSvin msg <;> rfl
    · rfl
    · rfl

/-! ### The validity law -/

/-- A session with the last completed epoch, `none` when a timeout or a powered-off antenna has
reset the navigation data since. -/
structure ObservedSession where
  session : GpsDeviceT
  latest : Option EpochT

/-- The last epoch in force after an event. -/
def latestEpoch (o : ObservedSession) : GnssEvent → Option EpochT
  | .message _ (some epoch) => some epoch
  | .message msg none => if antennaOff o.session msg then none else o.latest
  | .timeout => none

/-- A step of the thread, observed. -/
def observedStep (host : Host) (o : ObservedSession) (e : GnssEvent) : ObservedSession :=
  { session := (gnssThreadStep host o.session e).1, latest := latestEpoch o e }

/-- The session of an observed run is the session of the run. -/
theorem session_after_observedStep (host : Host) (o : ObservedSession) (es : List GnssEvent) :
    (after (observedStep host) o es).session
      = after (fun s e => (gnssThreadStep host s e).1) o.session es :=
  after_hom ObservedSession.session fun _ _ => rfl

/-- An epoch that makes a usable reference: a fix of at least `EPOCH_FIX_TIME`, marked good by
the receiver and computed from more than `NUM_SAT_MIN` satellites. -/
structure UsableEpoch (epoch : EpochT) : Prop where
  haveFix : epoch.haveFix = true
  fix : epochFixTime ≤ epoch.fix
  fixOk : epoch.fixOk = true
  satellites : numSatMin < gnssGetSatellites epoch

/-- The last completed epoch, with no reset since, is usable. -/
def LatestUsable (o : ObservedSession) : Prop :=
  ∃ epoch, o.latest = some epoch ∧ UsableEpoch epoch

/-- **The validity law**: a session marked valid has a good fix of at least `EPOCH_FIX_TIME`,
and a reader is told so only while the last completed epoch is usable. -/
structure ValidityLaw (o : ObservedSession) : Prop where
  fix : o.session.valid = true → o.session.fixOk = true ∧ epochFixTime ≤ o.session.fix
  epochData : (gnssGetEpochData o.session).valid = true → LatestUsable o
  fixInfo : (gnssGetFixInfo o.session).1 = true → LatestUsable o

/-- Both readers are handed the flag of the session. -/
theorem validityLaw_iff {o : ObservedSession} :
    ValidityLaw o ↔ (o.session.valid = true →
      (o.session.fixOk = true ∧ epochFixTime ≤ o.session.fix) ∧ LatestUsable o) :=
  ⟨fun h hv => ⟨h.fix hv, h.epochData hv⟩,
    fun h => ⟨fun hv => (h hv).1, fun hv => (h hv).2, fun hv => (h hv).2⟩⟩

/-- The event is not an epoch without a fix that finds the session marked valid. -/
def FixNotLostWhileValid (o : ObservedSession) (e : GnssEvent) : Prop :=
  ∀ msg epoch, e = .message msg (some epoch) → epoch.haveFix = false → o.session.valid = false

/-- An epoch with a fix sets `valid` from that very epoch. -/
theorem validityLaw_of_haveFix (host : Host) (o : ObservedSession) (msg : ParserMsgT)
    {epoch : EpochT} (hfix : epoch.haveFix = true) :
    ValidityLaw (observedStep host o (.message msg (some epoch))) := by
  refine validityLaw_iff.mpr fun hvalid => ?_
  simp only [observedStep, gnssThreadStep, gnssThreadEpoch, hfix, if_true, Bool.and_eq_true,
    decide_eq_true_eq] at hvalid
  obtain ⟨hle, hok, hsat⟩ := hvalid
  refine ⟨⟨?_, ?_⟩, epoch, rfl, hfix, hle, hok, hsat⟩
  · simp [observedStep, gnssThreadStep, gnssThreadEpoch, hfix, hok, hsat]
  · simpa [observedStep, gnssThreadStep, gnssThreadEpoch, hfix] using hle

/-- An epoch without a fix leaves `valid` as it was and its `fix` below `EPOCH_FIX_TIME`. -/
theorem validityLaw_iff_of_not_haveFix (host : Host) (o : ObservedSession) (msg : ParserMsgT)
    {epoch : EpochT} (hfix : epoch.haveFix = false) :
    ValidityLaw (observedStep host o (.message msg (some epoch)))
      ↔ o.session.valid = false := by
  have hfixOk : (observedStep host o (.message msg (some epoch))).session.fixOk = false := by
    simp [observedStep, gnssThreadStep, gnssThreadEpoch, hfix]
  have hvalid : (observedStep host o (.message msg (some epoch))).session.valid
      = o.session.valid := by
    simp [observedStep, gnssThreadStep, gnssThreadEpoch, hfix]
  rw [validityLaw_iff, hfixOk, hvalid]
  cases o.session.valid <;> simp

/-- A message that completes no epoch keeps the law. -/
theorem ValidityLaw.analyze {o : ObservedSession} (h : ValidityLaw o) (host : Host)
    (msg : ParserMsgT) : ValidityLaw (observedStep host o (.message msg none)) := by
  have hnav := navigation_gnssThreadAnalyze o.session msg
  simp only [GpsDeviceT.navigation] at hnav
  refine validityLaw_iff.mpr fun hvalid => ?_
  by_cases hoff : antennaOff o.session msg = true
  · rw [if_pos hoff] at hnav
    have hreset : (gnssThreadAnalyze o.session msg).1.valid = false := congrArg Prod.fst hnav
    simp [observedStep, gnssThreadStep, hreset] at hvalid
  · rw [if_neg hoff] at hnav
    simp only [Prod.mk.injEq] at hnav
    obtain ⟨hv, hf, hok⟩ := hnav
    simp only [observedStep, gnssThreadStep] at hvalid ⊢
    rw [hv] at hvalid
    simp only [LatestUsable, latestEpoch, if_neg hoff, hf, hok]
    exact validityLaw_iff.mp h hvalid

/-- **The step of the validity law.** From a state that obeys the law, a step reaches one that
does exactly when it is not an epoch without a fix that finds the session marked valid. -/
theorem validityLaw_observedStep_iff (host : Host) {o : ObservedSession} (h : ValidityLaw o)
    (e : GnssEvent) : ValidityLaw (observedStep host o e) ↔ FixNotLostWhileValid o e := by
  rcases e with ⟨msg, _ | epoch⟩ | _
  · exact iff_of_true (h.analyze host msg) fun _ _ he => by simp at he
  · cases hfix : epoch.haveFix
    · rw [validityLaw_iff_of_not_haveFix host o msg hfix]
      constructor
      · intro hv msg' epoch' _ _
        exact hv
      · intro hkept
        exact hkept msg epoch rfl hfix
    · refine iff_of_true (validityLaw_of_haveFix host o msg hfix) fun _ _ he hno => ?_
      obtain ⟨-, rfl⟩ : msg = _ ∧ epoch = _ := by simpa using he
      rw [hfix] at hno
      cases hno
  · refine iff_of_true (validityLaw_iff.mpr fun hvalid => ?_) fun _ _ he => by cases he
    simp [observedStep, gnssThreadStep, gnssResetSessionNavigationData] at hvalid

/-- The observed session of the daemon's start: `gnss_init` has prepared it and no epoch has
completed. -/
def observedInit (session : GpsDeviceT) (bypassSurvey : Bool) : ObservedSession :=
  { session := gnssInitSession session bypassSurvey, latest := none }

/-- The law holds before the first message. -/
theorem validityLaw_observedInit (session : GpsDeviceT) (bypassSurvey : Bool) :
    ValidityLaw (observedInit session bypassSurvey) := by
  refine validityLaw_iff.mpr fun hvalid => ?_
  simp [observedInit, gnssInitSession, gnssResetSessionNavigationData] at hvalid

/-- **Validity of the GNSS reference.** Whatever session the daemon starts from and whatever the
receiver sends, the validity law holds in every reachable state exactly when no epoch without a
fix completes while the session is marked valid. -/
theorem validityLaw_throughout_iff (host : Host) (session : GpsDeviceT) (bypassSurvey : Bool)
    (es : List GnssEvent) :
    Throughout (observedStep host) ValidityLaw (observedInit session bypassSurvey) es ↔
      EachStep (observedStep host) FixNotLostWhileValid (observedInit session bypassSurvey) es :=
  throughout_iff_eachStep (J := fun _ => True) trivial (validityLaw_observedInit _ _)
    (fun _ _ _ => trivial) fun _ e _ h => validityLaw_observedStep_iff host h e

/-! ### A reference that outlives its fix -/

/-- Seconds since the epoch of a broken-down UTC time, by the count of days of the Gregorian
calendar in eras of 400 years that begin in March. -/
def utcSeconds (t : Tm) : ℤ :=
  let month := t.tmMon + 1
  let year := t.tmYear + 1900 - if month ≤ 2 then 1 else 0
  let era := year / 400
  let yearOfEra := year - era * 400
  let dayOfYear := (153 * (month + if 2 < month then -3 else 9) + 2) / 5 + t.tmMday - 1
  let dayOfEra := yearOfEra * 365 + yearOfEra / 4 - yearOfEra / 100 + dayOfYear
  (era * 146097 + dayOfEra - 719468) * 86400 + t.tmHour * 3600 + t.tmMin * 60 + t.tmSec

/-- A host in UTC. -/
def hostUtc : Host := { mktime := utcSeconds, gmtoff := fun _ => 0 }

/-- The session of a daemon that has just started. -/
def sessionZero : GpsDeviceT :=
  { context := ⟨0, 0, 0, .noWarning, 0, 0, false⟩, lastFixUtcTime := ⟨0, 0⟩, fix := 0
    fixOk := false, antennaStatus := 0, antennaPower := 0, valid := false, taiTimeSet := false
    taiTime := 0, satellitesCount := 0, bypassSurvey := false, surveyCompleted := false
    positionAccuracy := 0, timeAccuracy := 0 }

/-- A three-dimensional fix from ten satellites. -/
def epochFixed : EpochT :=
  { haveNumSv := true, numSv := 10, haveFix := true, fix := 5, fixOk := true, havePos := true
    posAcc := 1, haveTime := true, timeAcc := 10, year := 2024, month := 5, day := 17, hour := 8
    minute := 0, second := 0 }

example : gnssGetUtcTime hostUtc epochFixed = 1715932800 := by decide +kernel

/-- The epoch after the fix was lost: the receiver sends no navigation solution. -/
def epochLost : EpochT :=
  { epochFixed with haveNumSv := false, haveFix := false, havePos := false, haveTime := false }

/-- One epoch with a fix, then one without: the session is still marked valid, without a fix. -/
theorem validityLaw_fails_fix_lost :
    ¬ Throughout (observedStep hostUtc) ValidityLaw (observedInit sessionZero false)
        [.message ⟨.ubx, []⟩ (some epochFixed), .message ⟨.ubx, []⟩ (some epochLost)] := by
  intro h
  have hfix := (h.last).fix (by decide)
  exact absurd hfix.1 (by decide)

end Oscillatord
