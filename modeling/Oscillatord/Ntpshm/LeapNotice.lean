import Oscillatord.Gnss.LeapWarning
import Oscillatord.Ntpshm.Service

/-!
# The leap second that the NTP daemon is told of

A leap second is announced by the receiver, kept in the context of the session
(`gnss_parse_ubx_nav_timels`), handed to `ntp_write` with each pair, and passed on by it in the last
month of a half-year only. Here the way is followed to its end, over whole runs of the service: what
`ntp_read` is told with a pair is what the newest announcement before it justifies, in June and in
December of the time told, and nothing in the other months, as long as each announcement is followed
(`service_leap`): one is not if it is of an unknown change and finds a warning, as for the session
alone.
-/

namespace Oscillatord

open StepRun CNumber

/-! ### Announcements -/

/-- The message of an iteration that `gnss_parse_ubx_nav_timels` is called with. -/
def GnssEvent.timels : GnssEvent → Option ParserMsgT
  | .message msg none => if ubxClsId msg = 0x01 ∧ ubxMsgId msg = 0x26 then some msg else none
  | _ => none

/-- The message of a step. -/
def ServiceEvent.timels : ServiceEvent → Option ParserMsgT
  | .gnss e _ => e.timels
  | _ => none

/-- What the newest announcement justifies. -/
def newestWarning (es : List ServiceEvent) : LeapNotify :=
  ((es.filterMap ServiceEvent.timels).getLast?.map warningOf).getD .noWarning

/-- The announcement is not of an unknown change while a warning is up. -/
def FollowedAnnouncement (o : ObservedService) (e : ServiceEvent) : Prop :=
  ∀ msg ∈ e.timels, KnownChangeWhileWarning ⟨o.service.session, []⟩ msg

theorem newestWarning_concat (es : List ServiceEvent) (e : ServiceEvent) :
    newestWarning (es ++ [e]) = (e.timels.map warningOf).getD (newestWarning es) := by
  rw [newestWarning, List.filterMap_append]
  cases htimels : e.timels <;> simp [htimels, newestWarning]

/-! ### The notice in force -/

theorem leapNotify_storeTimTp (session : GpsDeviceT) (taiTime qErr : ℤ) :
    (session.storeTimTp taiTime qErr).context.leapNotify = session.context.leapNotify := rfl

theorem leapNotify_gnssParseUbxTimTp (session : GpsDeviceT) (msg : ParserMsgT) :
    (gnssParseUbxTimTp session msg).context.leapNotify = session.context.leapNotify := by
  simp only [gnssParseUbxTimTp]
  split
  · generalize timTpOffset _ _ _ = offset
    cases offset with
    | none => rfl
    | some offset => exact leapNotify_storeTimTp ..
  · rfl

/-- Only an announcement changes the notice. -/
theorem leapNotify_gnssThreadStep (host : Host) (session : GpsDeviceT) (e : GnssEvent) :
    (gnssThreadStep host session e).1.context.leapNotify = match e.timels with
      | some msg => (gnssParseUbxNavTimels session msg).context.leapNotify
      | none => session.context.leapNotify := by
  rcases e with ⟨msg, _ | epoch⟩ | _
  · simp only [gnssThreadStep, GnssEvent.timels, gnssThreadAnalyze]
    by_cases hrf : ubxClsId msg = 0x0a ∧ ubxMsgId msg = 0x38
    · have hno : ¬ (ubxClsId msg = 0x01 ∧ ubxMsgId msg = 0x26) := by
        rw [hrf.1]
        exact fun h => absurd h.1 (by decide)
      have hantenna : (gnssGetAntennaData session msg).context = session.context := by
        rw [gnssGetAntennaData]
        split_ifs <;> rfl
      rw [if_pos hrf, if_neg hno]
      split_ifs <;> simp [gnssResetSessionNavigationData, hantenna]
    · rw [if_neg hrf]
      by_cases htimels : ubxClsId msg = 0x01 ∧ ubxMsgId msg = 0x26
      · rw [if_pos htimels, if_pos htimels]
      · rw [if_neg htimels, if_neg htimels]
        split_ifs
        · exact leapNotify_gnssParseUbxTimTp session msg
        · cases gnssParseUbxTimSvin msg <;> rfl
        · rfl
        · rfl
  · simp only [gnssThreadStep, gnssThreadEpoch, GnssEvent.timels]
    split_ifs <;> rfl
  · rfl

variable {host : Host} {inner : InnerContext} {first : ℕ} {session : GpsDeviceT} {ntp : NtpSession}
  {context : NtpContext} {es : List ServiceEvent}

/-- The thread of the pulses leaves the session alone. -/
theorem session_serviceRound (s : NtpService) (kpps : KppsAnswer) :
    (serviceRound inner s kpps).1.session = s.session := by
  simp only [serviceRound]
  split_ifs
  · cases (ppsRound inner s.monitor .failed kpps).2.reported <;> rfl
  · rfl

/-- One step. -/
theorem leapNotify_observedServiceStep {o : ObservedService} {e : ServiceEvent}
    (hfollowed : FollowedAnnouncement o e) :
    (observedServiceStep host inner o e).service.session.context.leapNotify
      = (e.timels.map warningOf).getD o.service.session.context.leapNotify := by
  cases e with
  | gnss e clock =>
    simp only [observedServiceStep, serviceStep, ServiceEvent.timels]
    rw [leapNotify_gnssThreadStep]
    rcases htimels : e.timels with _ | msg
    · rfl
    · exact (notify_observedTimelsStep_iff ⟨o.service.session, []⟩ msg).mpr
        (hfollowed msg htimels)
  | edge pi => exact congrArg (·.context.leapNotify) (session_serviceRound ..)
  | timeout => exact congrArg (·.context.leapNotify) (session_serviceRound ..)

/-- The notice after a run is that of the newest announcement. -/
theorem leapNotify_after (hnotice : session.context.leapNotify = .noWarning)
    (hfollowed : EachStep (observedServiceStep host inner) FollowedAnnouncement
      (ObservedService.start first session ntp context) es) :
    (after (observedServiceStep host inner) (ObservedService.start first session ntp context)
      es).service.session.context.leapNotify = newestWarning es := by
  induction es using List.reverseRecOn with
  | nil => exact hnotice
  | append_singleton es e ih =>
    rw [eachStep_append, eachStep_cons] at hfollowed
    obtain ⟨hbefore, he, -⟩ := hfollowed
    rw [after_append, after_cons, after_nil, leapNotify_observedServiceStep he, ih hbefore,
      newestWarning_concat]

/-- A pair is put with the notice in force. -/
theorem sample_serviceStep {s : NtpService} {e : ServiceEvent} {sample : ShmSample}
    (hsample : sample ∈ (serviceStep host inner s e).2) :
    sample.leapNotify = s.session.context.leapNotify := by
  have hround : ∀ kpps, sample ∈ (serviceRound inner s kpps).2 →
      sample.leapNotify = s.session.context.leapNotify := by
    intro kpps hput
    simp only [serviceRound] at hput
    split_ifs at hput
    · rcases hreported : (ppsRound inner s.monitor .failed kpps).2.reported with _ | td
      · simp [hreported] at hput
      · simp only [hreported, NtpService.sample] at hput
        split_ifs at hput
        · obtain ⟨n, -, rfl⟩ := Option.map_eq_some_iff.mp hput
          rfl
        · cases hput
    · cases hput
  cases e with
  | gnss => cases hsample
  | edge pi => exact hround _ hsample
  | timeout => exact hround _ hsample

/-- **The notice of a pair.** In every run of the service in which each announcement is followed,
the reader of a pair is told what the newest one before it justifies if the time told is in June or
December, and that there is no leap second if it is not. -/
theorem service_leap (hnotice : session.context.leapNotify = .noWarning)
    (hfollowed : EachStep (observedServiceStep host inner) FollowedAnnouncement
      (ObservedService.start first session ntp context) es)
    {pre : List ServiceEvent} {e : ServiceEvent} (hpre : pre ++ [e] <+: es) {sample : ShmSample}
    (hsample : sample ∈ (serviceStep host inner (after (observedServiceStep host inner)
      (ObservedService.start first session ntp context) pre).service e).2)
    {t : Tm} (hvalid : t.Valid) (hsec : t.tmSec < 60) (htime : sample.td.real.tvSec = posixTime t)
    (mode : ℤ) (stat : ShmStatT) :
    (ntpStat mode sample.record stat).leap
      = if t.tmMon = 5 ∨ t.tmMon = 11 then (newestWarning pre).code
        else LeapNotify.noWarning.code := by
  have hbefore : EachStep (observedServiceStep host inner) FollowedAnnouncement
      (ObservedService.start first session ntp context) pre :=
    fun pre' e' hpre' => hfollowed pre' e'
      (hpre'.trans ((List.prefix_append pre [e]).trans hpre))
  have hleap : (ntpStat mode sample.record stat).leap
      = (ntpLeapNotify sample.td sample.leapNotify).code := rfl
  rw [hleap, ntpLeapNotify_eq hvalid hsec htime, sample_serviceStep hsample,
    leapNotify_after hnotice hbefore]
  split_ifs <;> rfl

/-! ### A leap second in June -/

/-- 2024-06-30 08:00:00 UTC. -/
def epochJune : EpochT := { epochFixed with month := 6, day := 30 }

/-- A leap second is announced, there is a fix, and two edges come. -/
def announcedSecond : List ServiceEvent :=
  [.gnss (.message (timelsFrame 1) none) ⟨10, 30000000⟩,
    .gnss (.message ⟨.ubx, []⟩ (some epochJune)) ⟨10, 50000000⟩,
    .edge (PulseTrain.hertz.info 0), .edge (PulseTrain.hertz.info 1)]

theorem service_leap_announcedSecond :
    ∃ sample ∈ (serviceStep hostUtc PulseTrain.kernelWaits
        (after (observedServiceStep hostUtc PulseTrain.kernelWaits)
          (ObservedService.start 0 sessionZero sessionPps contextPps)
          (announcedSecond.take 3)).service (.edge (PulseTrain.hertz.info 1))).2,
      ∀ mode stat, (ntpStat mode sample.record stat).leap = LeapNotify.addSecond.code := by
  have hfollowed : EachStep (observedServiceStep hostUtc PulseTrain.kernelWaits)
      FollowedAnnouncement (ObservedService.start 0 sessionZero sessionPps contextPps)
      announcedSecond := by
    simp only [announcedSecond, eachStep_cons]
    refine ⟨fun msg _ timels _ _ _ => rfl, fun msg h => ?_, fun msg h => ?_, fun msg h => ?_,
      eachStep_nil⟩ <;> cases h
  refine ⟨⟨⟨⟨1719734401, 0⟩, ⟨11, 0⟩⟩, -20, .addSecond⟩, by decide +kernel, fun mode stat => ?_⟩
  have hpre : announcedSecond.take 3 ++ [.edge (PulseTrain.hertz.info 1)] <+: announcedSecond :=
    List.prefix_refl _
  exact service_leap (t := { epochJune.utcTm with tmSec := 1 }) rfl hfollowed hpre
    (by decide +kernel)
    { year := by decide, mon := by decide, mday := by decide, hour := by decide
      min := by decide, sec := by decide } (by decide) (by decide +kernel) mode stat

end Oscillatord
