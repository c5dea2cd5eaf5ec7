import Oscillatord.Gnss.Thread

/-!
# What the daemon keeps of UBX-TIM-TP

`gnss_parse_ubx_tim_tp` keeps three things of an accepted message: the TAI time of the next
pulse, its quantization error, and the error of the message before. A run of `gnss_thread` is
observed here with every accepted message and with every signal of `cond_time`, which releases
`gnss_get_next_fix_tai_time` with the time the session holds.

Two laws are read off such a run. `FreshTaiLaw`: each signal of `cond_time` finds a message
accepted since the previous completed epoch, and no message is delivered for two epochs.
`QErrLaw`: the session holds the sanitised errors of the last two accepted messages. Nothing
clears `tai_time_set` once a message was accepted, so the first law holds exactly as long as no
two epochs complete without a message between them (`freshTaiLaw_throughout_iff`). The range
check is written with `abs`, so the second holds exactly as long as the least `int` is not
received (`qErrLaw_throughout_iff`).
-/

namespace Oscillatord

open StepRun CNumber

/-! ### Accepted messages -/

/-- What an accepted UBX-TIM-TP message says: the time of the next pulse, and the quantization
error as it was received. -/
structure TimTp where
  taiTime : ℤ
  qErr : ℤ
  deriving Repr, DecidableEq

/-- The message as `gnss_parse_ubx_tim_tp` accepts it, `none` on its early returns. -/
def timTpOf (session : GpsDeviceT) (msg : ParserMsgT) : Option TimTp :=
  if msg.size = 16 + ubxFrameSize then
    let towMs := loadU msg.data ubxHeadSize 4
    let qErr := loadI msg.data (ubxHeadSize + 8) 4
    let week := loadU msg.data (ubxHeadSize + 12) 2
    let flags := (loadByte msg.data (ubxHeadSize + 14)).toNat
    let refInfo := (loadByte msg.data (ubxHeadSize + 15)).toNat
    (timTpOffset session.context flags refInfo).map fun (offset : ℤ) =>
      let seconds : ℚ := (towMs : ℚ) / 1000 + week * secInWeek + offset - 1
      { taiTime := toInt32OfFloat (CNumber.round seconds), qErr := qErr }
  else none

/-- The quantization error that is kept of the received one. -/
def keptQErr (qErr : ℤ) : ℤ := if qErrAbsThresholdPs < abs32 qErr then 0 else qErr

/-- The quantization error that ought to be kept: the received one within the threshold, zero
outside. -/
def sanitisedQErr (qErr : ℤ) : ℤ :=
  if -qErrAbsThresholdPs ≤ qErr ∧ qErr ≤ qErrAbsThresholdPs then qErr else 0

/-- The parser stores what it accepts, and leaves the session alone otherwise. -/
theorem gnssParseUbxTimTp_eq (session : GpsDeviceT) (msg : ParserMsgT) :
    gnssParseUbxTimTp session msg = match timTpOf session msg with
      | none => session
      | some t => session.storeTimTp t.taiTime (keptQErr t.qErr) := by
  simp only [gnssParseUbxTimTp, timTpOf]
  split
  · generalize timTpOffset _ _ _ = offset
    cases offset with
    | none => rfl
    | some offset => simp only [Option.map_some, keptQErr]
  · rfl

/-- A received error is a 32-bit `int`. -/
theorem qErr_bounds {session : GpsDeviceT} {msg : ParserMsgT} {t : TimTp}
    (h : timTpOf session msg = some t) : -2 ^ 31 ≤ t.qErr ∧ t.qErr < 2 ^ 31 := by
  simp only [timTpOf] at h
  split at h
  · obtain ⟨offset, -, rfl⟩ := Option.map_eq_some_iff.mp h
    have hload := loadI_bounds msg.data (ubxHeadSize + 8) (n := 4) (by decide)
    norm_num at hload ⊢
    exact hload
  · cases h

/-- Every `int` but the least one is sanitised. -/
theorem keptQErr_eq_sanitised_iff {qErr : ℤ} (hlo : -2 ^ 31 ≤ qErr) (hhi : qErr < 2 ^ 31) :
    keptQErr qErr = sanitisedQErr qErr ↔ qErr ≠ -2 ^ 31 := by
  constructor
  · rintro h rfl
    revert h
    decide
  · intro hne
    have habs : abs32 qErr = |qErr| := abs32_eq_abs (by omega) hhi
    have hiff : ¬ qErrAbsThresholdPs < |qErr| ↔
        -qErrAbsThresholdPs ≤ qErr ∧ qErr ≤ qErrAbsThresholdPs := by
      rw [not_lt, abs_le]
    rw [keptQErr, sanitisedQErr, habs]
    by_cases hin : -qErrAbsThresholdPs ≤ qErr ∧ qErr ≤ qErrAbsThresholdPs
    · rw [if_pos hin, if_neg (hiff.mpr hin)]
    · rw [if_neg hin, if_pos (not_not.mp fun hnot => hin (hiff.mp hnot))]

/-- A sanitised error is within the threshold. -/
theorem sanitisedQErr_bounds (qErr : ℤ) :
    -qErrAbsThresholdPs ≤ sanitisedQErr qErr ∧ sanitisedQErr qErr ≤ qErrAbsThresholdPs := by
  unfold sanitisedQErr
  split
  · assumption
  · decide

/-- The UBX-TIM-TP message an iteration of `gnss_thread` accepts. -/
def acceptedTimTp (session : GpsDeviceT) : GnssEvent → Option TimTp
  | .message msg none =>
    if ubxClsId msg = 0x0d ∧ ubxMsgId msg = 0x01 then timTpOf session msg else none
  | .message _ (some _) => none
  | .timeout => none

/-- The iteration completes an epoch. -/
def GnssEvent.completesEpoch : GnssEvent → Bool
  | .message _ collected => collected.isSome
  | .timeout => false

/-! ### What an iteration does to the pulse -/

/-- What a session holds of UBX-TIM-TP. -/
structure PulseData where
  qErr : ℤ
  qErrLastEpoch : ℤ
  taiTimeSet : Bool
  taiTime : ℤ

/-- The fields `gnss_parse_ubx_tim_tp` writes. -/
def GpsDeviceT.pulse (session : GpsDeviceT) : PulseData :=
  { qErr := session.context.qErr
    qErrLastEpoch := session.context.qErrLastEpoch
    taiTimeSet := session.taiTimeSet
    taiTime := session.taiTime }

/-- The pulse after a message is accepted. -/
def PulseData.accept (p : PulseData) (t : TimTp) : PulseData :=
  { qErr := keptQErr t.qErr
    qErrLastEpoch := p.qErr
    taiTimeSet := true
    taiTime := t.taiTime }

theorem pulse_gnssParseUbxTimTp (session : GpsDeviceT) (msg : ParserMsgT) :
    (gnssParseUbxTimTp session msg).pulse =
      (timTpOf session msg).elim session.pulse session.pulse.accept := by
  rw [gnssParseUbxTimTp_eq]
  cases timTpOf session msg <;> rfl

theorem pulse_gnssParseUbxNavTimels (session : GpsDeviceT) (msg : ParserMsgT) :
    (gnssParseUbxNavTimels session msg).pulse = session.pulse := by
  simp only [gnssParseUbxNavTimels]
  split
  · split <;> rfl
  · rfl

theorem pulse_gnssGetAntennaData (session : GpsDeviceT) (msg : ParserMsgT) :
    (gnssGetAntennaData session msg).pulse = session.pulse := by
  simp only [gnssGetAntennaData]
  split <;> rfl

theorem pulse_gnssResetSessionNavigationData (session : GpsDeviceT) :
    (gnssResetSessionNavigationData session).pulse = session.pulse := rfl

theorem pulse_gnssThreadEpoch (host : Host) (session : GpsDeviceT) (epoch : EpochT) :
    (gnssThreadEpoch host session epoch).1.pulse = session.pulse := by
  simp only [gnssThreadEpoch]
  split <;> rfl

/-- An iteration changes the pulse by the message it accepts, and not otherwise. -/
theorem pulse_gnssThreadStep (host : Host) (session : GpsDeviceT) (e : GnssEvent) :
    (gnssThreadStep host session e).1.pulse =
      (acceptedTimTp session e).elim session.pulse session.pulse.accept := by
  rcases e with ⟨msg, _ | epoch⟩ | _
  · simp only [gnssThreadStep, acceptedTimTp, gnssThreadAnalyze]
    by_cases htp : ubxClsId msg = 0x0d ∧ ubxMsgId msg = 0x01
    · -- the two tests before this one look for another class
      have hrf : ¬ (ubxClsId msg = 0x0a ∧ ubxMsgId msg = 0x38) := by simp [htp.1]
      have hls : ¬ (ubxClsId msg = 0x01 ∧ ubxMsgId msg = 0x26) := by simp [htp.1]
      rw [if_neg hrf, if_neg hls, if_pos htp, if_pos htp]
      exact pulse_gnssParseUbxTimTp session msg
    · rw [if_neg htp, if_neg htp]
      split_ifs
      · exact pulse_gnssGetAntennaData session msg
      · exact pulse_gnssGetAntennaData session msg
      · exact pulse_gnssParseUbxNavTimels session msg
      · cases gnssParseUbxTimSvin msg <;> rfl
      · rfl
      · rfl
  · exact pulse_gnssThreadEpoch host session epoch
  · exact pulse_gnssResetSessionNavigationData session

/-- `cond_time` is signalled by the epochs that complete once a message was accepted. -/
theorem condTime_mem_gnssThreadStep (host : Host) (session : GpsDeviceT) (e : GnssEvent) :
    .condTime ∈ (gnssThreadStep host session e).2 ↔
      e.completesEpoch = true ∧ session.taiTimeSet = true := by
  rcases e with ⟨msg, _ | epoch⟩ | _
  · simp only [gnssThreadStep, gnssThreadAnalyze, GnssEvent.completesEpoch, Option.isSome_none,
      Bool.false_eq_true, false_and, iff_false]
    split_ifs
    · simp
    · simp
    · simp
    · simp
    · cases gnssParseUbxTimSvin msg <;> simp
    · simp
    · simp
  · have hset : (gnssThreadEpoch host session epoch).1.taiTimeSet = session.taiTimeSet :=
      congrArg PulseData.taiTimeSet (pulse_gnssThreadEpoch host session epoch)
    simp only [gnssThreadEpoch] at hset
    simp only [gnssThreadStep, gnssThreadEpoch, GnssEvent.completesEpoch, Option.isSome_some,
      true_and, List.mem_cons, reduceCtorEq, false_or, hset]
    cases session.taiTimeSet <;> simp
  · simp [gnssThreadStep, GnssEvent.completesEpoch]

/-! ### Runs of the thread -/

/-- One release of `gnss_get_next_fix_tai_time`: the number of the message whose time is
delivered, how many messages had been accepted when the previous epoch completed, and the
time. -/
structure TaiDelivery where
  message : ℕ
  atEpoch : ℕ
  taiTime : ℤ
  deriving Repr, DecidableEq

/-- A run of the thread, observed: the accepted messages and the deliveries, the latest first,
and how many messages had been accepted when the last epoch completed. -/
structure PulseHistory where
  session : GpsDeviceT
  accepted : List TimTp
  atEpoch : ℕ
  delivered : List TaiDelivery

/-- A step of the thread, observed. -/
def pulseStep (host : Host) (h : PulseHistory) (e : GnssEvent) : PulseHistory :=
  let next := gnssThreadStep host h.session e
  let accepted := (acceptedTimTp h.session e).toList ++ h.accepted
  { session := next.1
    accepted := accepted
    atEpoch := if e.completesEpoch then accepted.length else h.atEpoch
    delivered :=
      if .condTime ∈ next.2 then
        { message := accepted.length, atEpoch := h.atEpoch, taiTime := next.1.taiTime }
          :: h.delivered
      else h.delivered }

/-- The daemon's start: `main` clears the session and its context, `gnss_init` prepares it. -/
def pulseInit (bypassSurvey : Bool) : PulseHistory :=
  { session := gnssInitSession sessionZero bypassSurvey
    accepted := []
    atEpoch := 0
    delivered := [] }

/-- The session of an observed run is the session of the run. -/
theorem session_after_pulseStep (host : Host) (h : PulseHistory) (es : List GnssEvent) :
    (after (pulseStep host) h es).session
      = after (fun s e => (gnssThreadStep host s e).1) h.session es :=
  after_hom PulseHistory.session fun _ _ => rfl

variable {h : PulseHistory} {e : GnssEvent}

/-- A completed epoch accepts no message. -/
theorem acceptedTimTp_of_completesEpoch {session : GpsDeviceT} (he : e.completesEpoch = true) :
    acceptedTimTp session e = none := by
  rcases e with ⟨msg, _ | epoch⟩ | _
  · cases he
  · rfl
  · cases he

/-- The step of an epoch: with a message accepted at some time, its time is delivered. -/
theorem pulseStep_epoch (host : Host) (he : e.completesEpoch = true) :
    pulseStep host h e =
      { session := (gnssThreadStep host h.session e).1
        accepted := h.accepted
        atEpoch := h.accepted.length
        delivered :=
          if h.session.taiTimeSet then
            { message := h.accepted.length, atEpoch := h.atEpoch
              taiTime := (gnssThreadStep host h.session e).1.taiTime } :: h.delivered
          else h.delivered } := by
  simp only [pulseStep, acceptedTimTp_of_completesEpoch he, he, Option.toList_none,
    List.nil_append, if_true, condTime_mem_gnssThreadStep, true_and]

/-- Every other step delivers nothing. -/
theorem pulseStep_other (host : Host) (he : e.completesEpoch = false) :
    pulseStep host h e =
      { session := (gnssThreadStep host h.session e).1
        accepted := (acceptedTimTp h.session e).toList ++ h.accepted
        atEpoch := h.atEpoch
        delivered := h.delivered } := by
  simp only [pulseStep, he, Bool.false_eq_true, if_false, condTime_mem_gnssThreadStep, false_and]

/-! ### Fresh TAI time -/

/-- What a run keeps: the time of the session is that of the last accepted message, if there is
one, and the deliveries were all made by the last completed epoch. -/
structure PulseInvariant (h : PulseHistory) : Prop where
  taiTimeSet : h.session.taiTimeSet = !h.accepted.isEmpty
  taiTime : ∀ t ∈ h.accepted.head?, h.session.taiTime = t.taiTime
  atEpoch : h.atEpoch ≤ h.accepted.length
  message : ∀ d ∈ h.delivered, d.message ≤ h.atEpoch

theorem pulseInvariant_pulseInit (bypassSurvey : Bool) :
    PulseInvariant (pulseInit bypassSurvey) := by
  refine ⟨rfl, ?_, le_rfl, ?_⟩
  · intro t ht
    cases ht
  · intro d hd
    cases hd

theorem PulseInvariant.step (hinv : PulseInvariant h) (host : Host) (e : GnssEvent) :
    PulseInvariant (pulseStep host h e) := by
  have hpulse := pulse_gnssThreadStep host h.session e
  cases he : e.completesEpoch
  · rw [pulseStep_other host he]
    cases hacc : acceptedTimTp h.session e with
    | none =>
      rw [hacc] at hpulse
      have hset : (gnssThreadStep host h.session e).1.taiTimeSet = h.session.taiTimeSet :=
        congrArg PulseData.taiTimeSet hpulse
      have htime : (gnssThreadStep host h.session e).1.taiTime = h.session.taiTime :=
        congrArg PulseData.taiTime hpulse
      refine ⟨hset.trans hinv.taiTimeSet, fun t ht => htime.trans (hinv.taiTime t ht), ?_, ?_⟩
      · exact hinv.atEpoch
      · exact hinv.message
    | some t =>
      rw [hacc] at hpulse
      refine ⟨congrArg PulseData.taiTimeSet hpulse, fun t' ht' => ?_, ?_, hinv.message⟩
      · obtain rfl : t = t' := by simpa using ht'
        exact congrArg PulseData.taiTime hpulse
      · simpa using hinv.atEpoch.trans (Nat.le_succ _)
  · rw [pulseStep_epoch host he]
    rw [acceptedTimTp_of_completesEpoch he] at hpulse
    have hset : (gnssThreadStep host h.session e).1.taiTimeSet = h.session.taiTimeSet :=
      congrArg PulseData.taiTimeSet hpulse
    have htime : (gnssThreadStep host h.session e).1.taiTime = h.session.taiTime :=
      congrArg PulseData.taiTime hpulse
    refine ⟨hset.trans hinv.taiTimeSet, fun t ht => htime.trans (hinv.taiTime t ht), le_rfl, ?_⟩
    intro d hd
    dsimp only at hd ⊢
    split at hd
    · rcases List.mem_cons.mp hd with rfl | hd
      · exact le_rfl
      · exact (hinv.message d hd).trans hinv.atEpoch
    · exact (hinv.message d hd).trans hinv.atEpoch

/-- With a message accepted, the time an epoch delivers is that of the last one. -/
theorem PulseInvariant.taiTime_delivered (hinv : PulseInvariant h) (host : Host)
    (he : e.completesEpoch = true) (hset : h.session.taiTimeSet = true) :
    ∃ t rest, h.accepted = t :: rest ∧
      (gnssThreadStep host h.session e).1.taiTime = t.taiTime := by
  have hne := hinv.taiTimeSet.symm.trans hset
  cases hlist : h.accepted with
  | nil => simp [hlist] at hne
  | cons t rest =>
    refine ⟨t, rest, rfl, ?_⟩
    have hpulse := pulse_gnssThreadStep host h.session e
    rw [acceptedTimTp_of_completesEpoch he] at hpulse
    refine (congrArg PulseData.taiTime hpulse).trans (hinv.taiTime t ?_)
    rw [hlist]
    rfl

/-- The delivered time is that of the message with the number of the delivery. -/
def TaiDelivery.IsOf (accepted : List TimTp) (d : TaiDelivery) : Prop :=
  0 < d.message ∧ (accepted.reverse[d.message - 1]?).map TimTp.taiTime = some d.taiTime

theorem TaiDelivery.IsOf.cons {accepted : List TimTp} {d : TaiDelivery} (hd : d.IsOf accepted)
    (t : TimTp) : d.IsOf (t :: accepted) := by
  obtain ⟨hpos, htime⟩ := hd
  have hlt : d.message - 1 < accepted.reverse.length := by
    by_contra hge
    rw [List.getElem?_eq_none (not_lt.mp hge)] at htime
    cases htime
  refine ⟨hpos, ?_⟩
  rw [List.reverse_cons, List.getElem?_append_left hlt]
  exact htime

/-- **The law of fresh TAI time**: every delivery finds a message accepted since the previous
completed epoch, carries the time of the last accepted one, and no message is delivered twice. -/
structure FreshTaiLaw (h : PulseHistory) : Prop where
  fresh : ∀ d ∈ h.delivered, d.atEpoch < d.message
  isOf : ∀ d ∈ h.delivered, d.IsOf h.accepted
  once : (h.delivered.map TaiDelivery.message).Nodup

/-- An epoch completes only before the first accepted message, or after one accepted since the
previous epoch. -/
def TimTpSinceEpoch (h : PulseHistory) (e : GnssEvent) : Prop :=
  e.completesEpoch = true → h.accepted = [] ∨ h.atEpoch < h.accepted.length

/-- The law holds before the first message. -/
theorem freshTaiLaw_pulseInit (bypassSurvey : Bool) : FreshTaiLaw (pulseInit bypassSurvey) := by
  refine ⟨?_, ?_, List.nodup_nil⟩
  · intro d hd
    cases hd
  · intro d hd
    cases hd

/-- A step that completes no epoch keeps the law. -/
theorem FreshTaiLaw.other (hlaw : FreshTaiLaw h) (host : Host) (he : e.completesEpoch = false) :
    FreshTaiLaw (pulseStep host h e) := by
  rw [pulseStep_other host he]
  refine ⟨hlaw.fresh, fun d hd => ?_, hlaw.once⟩
  cases acceptedTimTp h.session e with
  | none => exact hlaw.isOf d hd
  | some t => exact (hlaw.isOf d hd).cons t

/-- **The step of fresh TAI time.** From a state that obeys the law, a step reaches one that does
exactly when it does not complete an epoch with nothing accepted since the previous one. -/
theorem freshTaiLaw_pulseStep_iff (host : Host) (hinv : PulseInvariant h) (hlaw : FreshTaiLaw h)
    (e : GnssEvent) : FreshTaiLaw (pulseStep host h e) ↔ TimTpSinceEpoch h e := by
  cases he : e.completesEpoch
  · refine iff_of_true (hlaw.other host he) fun hepoch => ?_
    rw [he] at hepoch
    cases hepoch
  · rw [pulseStep_epoch host he]
    cases hset : h.session.taiTimeSet
    · -- nothing was accepted yet: nothing is delivered
      have hnil : h.accepted = [] := by
        have hempty := hinv.taiTimeSet.symm.trans hset
        simpa using hempty
      refine iff_of_true ?_ fun _ => Or.inl hnil
      exact ⟨hlaw.fresh, hlaw.isOf, hlaw.once⟩
    · obtain ⟨t, rest, haccepted, htime⟩ := hinv.taiTime_delivered host he hset
      constructor
      · intro hnext _
        exact Or.inr (hnext.fresh _ List.mem_cons_self)
      · intro hsince
        have hlt : h.atEpoch < h.accepted.length := by
          rcases hsince he with hnil | hlt
          · rw [hnil] at haccepted
            cases haccepted
          · exact hlt
        refine ⟨?_, ?_, ?_⟩
        · intro d hd
          rcases List.mem_cons.mp hd with rfl | hd
          · exact hlt
          · exact hlaw.fresh d hd
        · intro d hd
          rcases List.mem_cons.mp hd with rfl | hd
          · refine ⟨Nat.zero_lt_of_lt hlt, ?_⟩
            simp [haccepted, htime]
          · exact hlaw.isOf d hd
        · refine List.nodup_cons.mpr ⟨fun hmem => ?_, hlaw.once⟩
          -- the earlier deliveries were made by an earlier epoch
          obtain ⟨d, hd, heq⟩ := List.mem_map.mp hmem
          have hle := hinv.message d hd
          dsimp only at heq
          omega

/-- **Freshness of the TAI time.** Whatever the receiver sends, the law of fresh TAI time holds
in every reachable state exactly when every epoch that completes once a message was accepted
finds another one accepted since the previous epoch. -/
theorem freshTaiLaw_throughout_iff (host : Host) (bypassSurvey : Bool) (es : List GnssEvent) :
    Throughout (pulseStep host) FreshTaiLaw (pulseInit bypassSurvey) es ↔
      EachStep (pulseStep host) TimTpSinceEpoch (pulseInit bypassSurvey) es :=
  throughout_iff_eachStep (pulseInvariant_pulseInit bypassSurvey)
    (freshTaiLaw_pulseInit bypassSurvey) (fun _ e hinv => hinv.step host e)
    fun _ e hinv hlaw => freshTaiLaw_pulseStep_iff host hinv hlaw e

/-- A UBX-TIM-TP frame on the GPS time base: one second into week zero, with a quantization
error given by its four bytes. -/
def timTpFrame (qErr : List UInt8) : ParserMsgT :=
  ⟨.ubx, [0xb5, 0x62, 0x0d, 0x01, 16, 0, 0xe8, 3, 0, 0, 0, 0, 0, 0] ++ qErr
    ++ [0, 0, 0, 0, 0, 0]⟩

/-- One message, then two epochs: the second epoch releases the time of the first. -/
theorem freshTaiLaw_fails_two_epochs :
    ¬ Throughout (pulseStep hostUtc) FreshTaiLaw (pulseInit false)
        [.message (timTpFrame [0, 0, 0, 0]) none, .message ⟨.ubx, []⟩ (some epochFixed),
          .message ⟨.ubx, []⟩ (some epochFixed)] := by
  intro h
  exact absurd (h.last).once (by decide +kernel)

/-! ### The history of the quantization error -/

/-- The sanitised error of the `k`-th accepted message, counted back from the last; zero where
there are fewer. -/
def sanitisedAt (accepted : List TimTp) (k : ℕ) : ℤ :=
  (accepted[k]?).elim 0 fun t => sanitisedQErr t.qErr

/-- **The law of the quantization errors**: the session holds the sanitised errors of the last
two accepted messages, and what it hands out is within the threshold. -/
structure QErrLaw (h : PulseHistory) : Prop where
  qErr : h.session.context.qErr = sanitisedAt h.accepted 0
  qErrLastEpoch : h.session.context.qErrLastEpoch = sanitisedAt h.accepted 1
  handed : -qErrAbsThresholdPs ≤ (gnssGetEpochData h.session).qErr ∧
    (gnssGetEpochData h.session).qErr ≤ qErrAbsThresholdPs

/-- An iteration that accepts no message leaves both errors unchanged. -/
def RejectedKeepsQErr (host : Host) (h : PulseHistory) (e : GnssEvent) : Prop :=
  acceptedTimTp h.session e = none →
    (pulseStep host h e).session.context.qErr = h.session.context.qErr ∧
      (pulseStep host h e).session.context.qErrLastEpoch = h.session.context.qErrLastEpoch

/-- The accepted message does not carry the least `int` as its error. -/
def QErrNotLeast (h : PulseHistory) (e : GnssEvent) : Prop :=
  ∀ t, acceptedTimTp h.session e = some t → t.qErr ≠ -2 ^ 31

theorem sanitisedAt_bounds (accepted : List TimTp) (k : ℕ) :
    -qErrAbsThresholdPs ≤ sanitisedAt accepted k ∧
      sanitisedAt accepted k ≤ qErrAbsThresholdPs := by
  unfold sanitisedAt
  cases accepted[k]? with
  | none => decide
  | some t => exact sanitisedQErr_bounds t.qErr

/-- What is handed out is within the threshold as soon as it is sanitised. -/
theorem QErrLaw.of_eq (hq : h.session.context.qErr = sanitisedAt h.accepted 0)
    (hlast : h.session.context.qErrLastEpoch = sanitisedAt h.accepted 1) : QErrLaw h := by
  refine ⟨hq, hlast, ?_⟩
  rw [gnssGetEpochData, hlast]
  exact sanitisedAt_bounds h.accepted 1

theorem qErrLaw_pulseInit (bypassSurvey : Bool) : QErrLaw (pulseInit bypassSurvey) :=
  QErrLaw.of_eq rfl rfl

theorem rejectedKeepsQErr (host : Host) (h : PulseHistory) (e : GnssEvent) :
    RejectedKeepsQErr host h e := by
  intro hnone
  have hpulse := pulse_gnssThreadStep host h.session e
  rw [hnone] at hpulse
  exact ⟨congrArg PulseData.qErr hpulse, congrArg PulseData.qErrLastEpoch hpulse⟩

/-- The messages accepted after a step. -/
theorem accepted_pulseStep (host : Host) (h : PulseHistory) (e : GnssEvent) :
    (pulseStep host h e).accepted = (acceptedTimTp h.session e).toList ++ h.accepted := rfl

/-- An accepted error is a 32-bit `int`. -/
theorem acceptedTimTp_bounds {session : GpsDeviceT} {t : TimTp}
    (hacc : acceptedTimTp session e = some t) : -2 ^ 31 ≤ t.qErr ∧ t.qErr < 2 ^ 31 := by
  rcases e with ⟨msg, _ | epoch⟩ | _
  · simp only [acceptedTimTp] at hacc
    split at hacc
    · exact qErr_bounds hacc
    · cases hacc
  · cases hacc
  · cases hacc

/-- **The step of the quantization errors.** From a state that obeys the law, a step reaches one
that does exactly when it does not accept the least `int`. -/
theorem qErrLaw_pulseStep_iff (host : Host) (hlaw : QErrLaw h) (e : GnssEvent) :
    QErrLaw (pulseStep host h e) ↔ QErrNotLeast h e := by
  cases hacc : acceptedTimTp h.session e with
  | none =>
    obtain ⟨hq, hlast⟩ := rejectedKeepsQErr host h e hacc
    have haccepted : (pulseStep host h e).accepted = h.accepted := by
      rw [accepted_pulseStep, hacc]
      rfl
    refine iff_of_true (QErrLaw.of_eq ?_ ?_) fun t ht => ?_
    · rw [hq, haccepted, hlaw.qErr]
    · rw [hlast, haccepted, hlaw.qErrLastEpoch]
    · rw [hacc] at ht
      cases ht
  | some t =>
    have hpulse := pulse_gnssThreadStep host h.session e
    rw [hacc] at hpulse
    have hq : (pulseStep host h e).session.context.qErr = keptQErr t.qErr :=
      congrArg PulseData.qErr hpulse
    have hlast : (pulseStep host h e).session.context.qErrLastEpoch = h.session.context.qErr :=
      congrArg PulseData.qErrLastEpoch hpulse
    have haccepted : (pulseStep host h e).accepted = t :: h.accepted := by
      rw [accepted_pulseStep, hacc]
      rfl
    obtain ⟨hlo, hhi⟩ := acceptedTimTp_bounds hacc
    have hiff := keptQErr_eq_sanitised_iff hlo hhi
    constructor
    · intro hnext t' ht'
      obtain rfl : t = t' := by simpa [hacc] using ht'
      refine hiff.mp ?_
      rw [← hq, hnext.qErr, haccepted]
      rfl
    · intro hleast
      have hkept := hiff.mpr (hleast t hacc)
      refine QErrLaw.of_eq ?_ ?_
      · rw [hq, haccepted, hkept]
        rfl
      · rw [hlast, haccepted, hlaw.qErr]
        rfl

/-- **History of the quantization errors.** Whatever the receiver sends, the session holds the
sanitised errors of the last two accepted messages in every reachable state, and no rejected
message changes them, exactly when no accepted message carries the least `int`. -/
theorem qErrLaw_throughout_iff (host : Host) (bypassSurvey : Bool) (es : List GnssEvent) :
    (Throughout (pulseStep host) QErrLaw (pulseInit bypassSurvey) es ∧
        EachStep (pulseStep host) (RejectedKeepsQErr host) (pulseInit bypassSurvey) es) ↔
      EachStep (pulseStep host) QErrNotLeast (pulseInit bypassSurvey) es := by
  have hrejected : EachStep (pulseStep host) (RejectedKeepsQErr host)
      (pulseInit bypassSurvey) es := fun _ e _ => rejectedKeepsQErr host _ e
  rw [and_iff_left hrejected]
  exact throughout_iff_eachStep (J := fun _ => True) trivial (qErrLaw_pulseInit bypassSurvey)
    (fun _ _ _ => trivial) fun _ e _ hlaw => qErrLaw_pulseStep_iff host hlaw e

/-- A message with the least `int`, then another one: calibration is handed -2147483648 ps. -/
theorem qErrLaw_fails_least_int :
    ¬ Throughout (pulseStep hostUtc) QErrLaw (pulseInit false)
        [.message (timTpFrame [0, 0, 0, 0x80]) none, .message (timTpFrame [0, 0, 0, 0]) none] := by
  intro h
  exact absurd (h.last).handed.1 (by decide +kernel)

end Oscillatord
