import Oscillatord.Gnss.TimTp
import Oscillatord.Library.Rounding

/-!
# The TAI time of an announced pulse

A UBX-TIM-TP message announces the next pulse as a week and a time of week in one of five time
bases. `TimeBase.tai` is the TAI second of that pulse, from the civil date of the epoch of the base
and from how far TAI is ahead of it; `gnss_parse_ubx_tim_tp` computes the second before it with one
constant for each base, in double precision, and casts the sum to `int`.

`TaiLaw` is that an accepted message which announces a whole second leaves that very second in the
session, that messages announcing the same pulse leave the same one, and that nothing overflows on
the way. The constants are right and the sum is exact, so the law holds of a run exactly as long as
the second before each announced pulse is below `2 ^ 31` (`taiLaw_eachStep_iff`).
-/

namespace Oscillatord

open StepRun CNumber Rounding

/-! ### The calendar -/

def isLeapYear (year : ℕ) : Bool := year % 4 = 0 && (year % 100 ≠ 0 || year % 400 = 0)

def daysInYear (year : ℕ) : ℕ := if isLeapYear year then 366 else 365

/-- The days of a month, counted from 1. -/
def daysInMonth (year month : ℕ) : ℕ :=
  if month = 2 then if isLeapYear year then 29 else 28
  else if month ∈ [4, 6, 9, 11] then 30
  else 31

/-- A date of the civil calendar. -/
structure CivilDate where
  year : ℕ
  month : ℕ
  day : ℕ

/-- The days from 1970-01-01 to a later date. -/
def CivilDate.daysSince1970 (date : CivilDate) : ℕ :=
  ((List.range (date.year - 1970)).map fun k => daysInYear (1970 + k)).sum +
    ((List.range (date.month - 1)).map fun k => daysInMonth date.year (k + 1)).sum + (date.day - 1)

/-! ### Time bases -/

/-- The time bases of UBX-TIM-TP; two of them need the leap seconds between GPS and UTC. -/
inductive TimeBase
  | gps
  | gal
  | bds
  | glo (leapSeconds : ℤ)
  | utc (leapSeconds : ℤ)
  deriving Repr, DecidableEq

/-- The date at which the base counts week 0. -/
def TimeBase.epoch : TimeBase → CivilDate
  | .gps | .glo _ | .utc _ => ⟨1980, 1, 6⟩
  | .gal => ⟨1999, 8, 22⟩
  | .bds => ⟨2006, 1, 1⟩

/-- How many seconds TAI is ahead of the base. GLONASS counts in UTC plus three hours. -/
def TimeBase.taiAhead : TimeBase → ℤ
  | .gps | .gal => 19
  | .bds => 33
  | .utc leapSeconds => 19 + leapSeconds
  | .glo leapSeconds => 19 + leapSeconds - 3 * 3600

/-- The TAI seconds from 1970-01-01 to the second `tow` of a week of the base. -/
def TimeBase.tai (base : TimeBase) (week tow : ℤ) : ℤ :=
  86400 * base.epoch.daysSince1970 + base.taiAhead + 7 * 86400 * week + tow

/-- The time base a message names: one bit for UTC, and the constellation otherwise. -/
def timTpBase (context : GpsContextT) (flags refInfo : ℕ) : Option TimeBase :=
  if flags.testBit 0 then if context.lsset then some (.utc context.leapSeconds) else none
  else
    match refInfo % 16 with
    | 0 => some .gps
    | 1 => if context.lsset then some (.glo context.leapSeconds) else none
    | 2 => some .bds
    | 3 => some .gal
    | _ => none

/-- The constant of the code for a time base. -/
def TimeBase.offset : TimeBase → ℤ
  | .gps => gpsEpochToTai
  | .gal => galEpochToTai
  | .bds => bdsEpochToTai
  | .glo leapSeconds => gloEpochToTai + leapSeconds
  | .utc leapSeconds => gpsEpochToTai + leapSeconds

/-- The sum of `gnss_parse_ubx_tim_tp` as it is computed, in double precision. -/
def timTpSeconds (towMs week offset : ℤ) : ℚ :=
  let d := binary64.round
  d (d (d (d (d towMs / d 1000) + d (d week * d secInWeek)) + d offset) - d 1)

/-! ### The law -/

/-- The iteration accepts a message that announces the second `tow` of a week of the base. -/
structure Announces (session : GpsDeviceT) (e : GnssEvent) (base : TimeBase) (week tow : ℤ) :
    Prop where
  accepted : (acceptedTimTp session e).isSome = true
  message : ∃ msg, e = .message msg none ∧
    timTpBase session.context (loadByte msg.data (ubxHeadSize + 14)).toNat
      (loadByte msg.data (ubxHeadSize + 15)).toNat = some base ∧
    loadU msg.data (ubxHeadSize + 12) 2 = week ∧ loadU msg.data ubxHeadSize 4 = 1000 * tow
  tow : 1000 * tow < 604800000

/-- Nothing overflows or is rounded on the way to the second before the pulse. -/
structure Computes (base : TimeBase) (week tow : ℤ) : Prop where
  offset : -2 ^ 31 ≤ base.offset ∧ base.offset < 2 ^ 31
  exact : timTpSeconds (1000 * tow) week base.offset = (base.tai week tow - 1 : ℤ)
  cast : -2 ^ 31 ≤ base.tai week tow - 1 ∧ base.tai week tow - 1 < 2 ^ 31

/-- The leap seconds of a session were received as one byte. -/
def GpsDeviceT.LeapByte (session : GpsDeviceT) : Prop :=
  -2 ^ 7 ≤ session.context.leapSeconds ∧ session.context.leapSeconds < 2 ^ 7

/-- The step of the thread, without its signals. -/
def threadSession (host : Host) (session : GpsDeviceT) (e : GnssEvent) : GpsDeviceT :=
  (gnssThreadStep host session e).1

/-- **The law of the conversion**, for one iteration. -/
def TaiLaw (host : Host) (session : GpsDeviceT) (e : GnssEvent) : Prop :=
  ∀ base week tow, Announces session e base week tow →
    (threadSession host session e).taiTime = base.tai week tow - 1 ∧ Computes base week tow ∧
      ∀ (session' : GpsDeviceT) (e' : GnssEvent) (base' : TimeBase) (week' tow' : ℤ),
        session'.LeapByte → Announces session' e' base' week' tow' →
        base'.tai week' tow' = base.tai week tow →
        (threadSession host session' e').taiTime = (threadSession host session e).taiTime

/-- The second before an announced pulse fits in an `int`. -/
def TaiKept (session : GpsDeviceT) (e : GnssEvent) : Prop :=
  ∀ base week tow, Announces session e base week tow → base.tai week tow - 1 < 2 ^ 31

/-! ### The constants -/

/-- **The constants** are the TAI seconds of the epochs. -/
theorem offset_eq_tai (base : TimeBase) : base.offset = base.tai 0 0 := by
  cases base with
  | gps => decide
  | gal => decide
  | bds => decide
  | glo leapSeconds =>
    have hepoch : (TimeBase.glo leapSeconds).epoch.daysSince1970 = 3657 := by
      simp only [TimeBase.epoch]
      decide
    simp only [TimeBase.offset, TimeBase.tai, TimeBase.taiAhead, hepoch, gloEpochToTai]
    omega
  | utc leapSeconds =>
    have hepoch : (TimeBase.utc leapSeconds).epoch.daysSince1970 = 3657 := by
      simp only [TimeBase.epoch]
      decide
    simp only [TimeBase.offset, TimeBase.tai, TimeBase.taiAhead, hepoch, gpsEpochToTai]
    omega

theorem tai_eq_offset_add (base : TimeBase) (week tow : ℤ) :
    base.tai week tow = tow + week * secInWeek + base.offset := by
  rw [offset_eq_tai, TimeBase.tai, TimeBase.tai, secInWeek]
  omega

theorem timTpOffset_eq (context : GpsContextT) (flags refInfo : ℕ) :
    timTpOffset context flags refInfo = (timTpBase context flags refInfo).map TimeBase.offset := by
  rw [timTpOffset, timTpBase]
  split
  · split_ifs <;> rfl
  · generalize refInfo % 16 = constellation
    match constellation with
    | 0 => rfl
    | 1 => split_ifs <;> rfl
    | 2 => rfl
    | 3 => rfl
    | _ + 4 => rfl

/-! ### What an iteration stores -/

variable {session : GpsDeviceT} {e : GnssEvent} {base : TimeBase} {week tow : ℤ}

theorem round_intCast_eq (n : ℤ) : CNumber.round n = n := by
  have hfloor : ⌊(n : ℚ) + 1 / 2⌋ = n := by
    rw [Int.floor_intCast_add]
    norm_num
  have hceil : ⌈(n : ℚ) - 1 / 2⌉ = n := by
    rw [sub_eq_add_neg, Int.ceil_intCast_add]
    norm_num
  rw [CNumber.round]
  split_ifs
  · exact hfloor
  · exact hceil

/-- An accepted message carries the cast of the second before its pulse. -/
theorem acceptedTimTp_of_announces (h : Announces session e base week tow) :
    ∃ t, acceptedTimTp session e = some t ∧
      t.taiTime = toInt32OfFloat (base.tai week tow - 1) := by
  obtain ⟨t, ht⟩ := Option.isSome_iff_exists.mp h.accepted
  obtain ⟨msg, rfl, hbase, hweek, htow⟩ := h.message
  refine ⟨t, ht, ?_⟩
  simp only [acceptedTimTp] at ht
  split_ifs at ht
  simp only [timTpOf, timTpOffset_eq, hbase, hweek, htow, Option.map_some] at ht
  split_ifs at ht
  obtain rfl := Option.some.inj ht
  have hsum : ((1000 * tow : ℤ) : ℚ) / 1000 + week * secInWeek + base.offset - 1
      = (base.tai week tow - 1 : ℤ) := by
    rw [tai_eq_offset_add]
    push_cast
    ring
  simp only [hsum, round_intCast_eq]

/-- The session holds the second of the message its iteration accepts. -/
theorem taiTime_of_announces (host : Host) (h : Announces session e base week tow) :
    (threadSession host session e).taiTime = toInt32OfFloat (base.tai week tow - 1) := by
  obtain ⟨t, ht, htime⟩ := acceptedTimTp_of_announces h
  have hpulse := pulse_gnssThreadStep host session e
  rw [ht] at hpulse
  exact (congrArg PulseData.taiTime hpulse).trans htime

/-- The leap seconds of a base are those of the session. -/
theorem leapSeconds_of_timTpBase {context : GpsContextT} {flags refInfo : ℕ}
    (h : timTpBase context flags refInfo = some base) :
    base = .gps ∨ base = .gal ∨ base = .bds ∨ base = .glo context.leapSeconds ∨
      base = .utc context.leapSeconds := by
  rw [timTpBase] at h
  split at h
  · split_ifs at h
    obtain rfl := Option.some.inj h
    simp
  · generalize refInfo % 16 = constellation at h
    match constellation with
    | 0 | 2 | 3 =>
      obtain rfl := Option.some.inj h
      simp
    | 1 =>
      split_ifs at h
      obtain rfl := Option.some.inj h
      simp
    | _ + 4 => cases h

/-- The constants fit in an `int`, and lie after 1970. -/
theorem offset_bounds (hleap : session.LeapByte) (h : Announces session e base week tow) :
    0 < base.offset ∧ base.offset < 2 ^ 31 := by
  obtain ⟨msg, -, hbase, -⟩ := h.message
  obtain ⟨hlo, hhi⟩ := hleap
  rcases leapSeconds_of_timTpBase hbase with rfl | rfl | rfl | rfl | rfl
  · decide
  · decide
  · decide
  · simp only [TimeBase.offset, gloEpochToTai]
    omega
  · simp only [TimeBase.offset, gpsEpochToTai]
    omega

/-- The fields of a message are unsigned, and the week has 16 bits. -/
theorem fields_bounds (h : Announces session e base week tow) :
    (0 ≤ tow ∧ tow < 604800) ∧ 0 ≤ week ∧ week < 2 ^ 16 := by
  obtain ⟨msg, -, -, hweek, htow⟩ := h.message
  have hday := h.tow
  have hweekBounds := loadU_bounds msg.data (ubxHeadSize + 12) 2
  have htowBounds := loadU_bounds msg.data ubxHeadSize 4
  rw [hweek] at hweekBounds
  rw [htow] at htowBounds
  norm_num at hweekBounds
  omega

/-- **The sum is exact** in double precision. -/
theorem timTpSeconds_eq (htow : 0 ≤ tow ∧ tow < 604800) (hweek : 0 ≤ week ∧ week < 2 ^ 16)
    (hoffset : 0 < base.offset ∧ base.offset < 2 ^ 31) :
    timTpSeconds (1000 * tow) week base.offset = (base.tai week tow - 1 : ℤ) := by
  have hint : ∀ m : ℤ, 0 ≤ m → m < 2 ^ 53 → binary64.round m = m := by
    intro m hlo hhi
    exact Format.round_intCast (by rwa [abs_of_nonneg hlo]) (by decide)
  have hone : binary64.round 1 = (1 : ℤ) := by exact_mod_cast hint 1 (by decide) (by decide)
  have htowMs : binary64.round (1000 * tow : ℤ) / binary64.round 1000 = tow := by
    have hthousand : binary64.round 1000 = 1000 := by
      exact_mod_cast hint 1000 (by decide) (by decide)
    rw [hint _ (by omega) (by omega), hthousand]
    push_cast
    rw [mul_div_cancel_left₀]
    norm_num
  have hweeks : binary64.round week * binary64.round secInWeek = (week * 604800 : ℤ) := by
    rw [hint week (by omega) (by omega), hint secInWeek (by decide) (by decide), secInWeek]
    push_cast
    rfl
  simp only [timTpSeconds, htowMs, hweeks, hone, hint tow (by omega) (by omega),
    hint (week * 604800) (by omega) (by omega), hint base.offset (by omega) (by omega)]
  rw [← Int.cast_add, hint _ (by omega) (by omega), ← Int.cast_add, hint _ (by omega) (by omega),
    ← Int.cast_sub, hint _ (by omega) (by omega), tai_eq_offset_add, secInWeek]

/-! ### The leap seconds -/

theorem context_gnssGetAntennaData (session : GpsDeviceT) (msg : ParserMsgT) :
    (gnssGetAntennaData session msg).context = session.context := by
  simp only [gnssGetAntennaData]
  split <;> rfl

theorem leapSeconds_gnssParseUbxNavTimels (session : GpsDeviceT) (msg : ParserMsgT) :
    (gnssParseUbxNavTimels session msg).context.leapSeconds =
      if msg.size = 24 + ubxFrameSize then
        if (loadByte msg.data (ubxHeadSize + 23)).toNat.testBit 0 then
          loadI msg.data (ubxHeadSize + 9) 1
        else 0
      else session.context.leapSeconds := by
  simp only [gnssParseUbxNavTimels]
  split
  · split <;> rfl
  · rfl

theorem leapSeconds_gnssParseUbxTimTp (session : GpsDeviceT) (msg : ParserMsgT) :
    (gnssParseUbxTimTp session msg).context.leapSeconds = session.context.leapSeconds := by
  rw [gnssParseUbxTimTp_eq]
  cases timTpOf session msg <;> rfl

theorem leapSeconds_gnssThreadEpoch (host : Host) (session : GpsDeviceT) (epoch : EpochT) :
    (gnssThreadEpoch host session epoch).1.context = session.context := by
  simp only [gnssThreadEpoch]
  split <;> rfl

/-- Every iteration keeps the leap seconds a byte. -/
theorem leapByte_threadSession (host : Host) (session : GpsDeviceT) (e : GnssEvent)
    (hleap : session.LeapByte) : (threadSession host session e).LeapByte := by
  have hkeep : ∀ next : GpsDeviceT, next.context.leapSeconds = session.context.leapSeconds →
      next.LeapByte := by
    intro next heq
    rw [GpsDeviceT.LeapByte, heq]
    exact hleap
  rcases e with ⟨msg, _ | epoch⟩ | _
  · simp only [threadSession, gnssThreadStep, gnssThreadAnalyze]
    split_ifs
    · exact hkeep _ (congrArg _ (context_gnssGetAntennaData session msg))
    · exact hkeep _ (congrArg _ (context_gnssGetAntennaData session msg))
    · rw [GpsDeviceT.LeapByte, leapSeconds_gnssParseUbxNavTimels]
      split_ifs
      · exact loadI_bounds msg.data (ubxHeadSize + 9) (by decide)
      · decide
      · exact hleap
    · exact hkeep _ (leapSeconds_gnssParseUbxTimTp session msg)
    · cases gnssParseUbxTimSvin msg <;> exact hleap
    · exact hleap
    · exact hleap
  · exact hkeep _ (congrArg _ (leapSeconds_gnssThreadEpoch host session epoch))
  · exact hleap

/-! ### When the law holds -/

theorem toInt32OfFloat_of_lt {x : ℤ} (hlo : 0 ≤ x) (hhi : x < 2 ^ 31) : toInt32OfFloat x = x := by
  rw [toInt32OfFloat, if_pos]
  omega

/-- **The law of one iteration** holds exactly when the second before the announced pulse fits. -/
theorem taiLaw_iff (host : Host) (session : GpsDeviceT) (e : GnssEvent) (hleap : session.LeapByte) :
    TaiLaw host session e ↔ TaiKept session e := by
  constructor
  · intro hlaw base week tow h
    exact (hlaw base week tow h).2.1.cast.2
  · intro hkept base week tow h
    obtain ⟨htow, hweek⟩ := fields_bounds h
    have hoffset := offset_bounds hleap h
    have hhi : base.tai week tow - 1 < 2 ^ 31 := hkept base week tow h
    have hlo : 0 ≤ base.tai week tow - 1 := by
      rw [tai_eq_offset_add, secInWeek]
      omega
    have hstored := taiTime_of_announces host h
    refine ⟨hstored.trans (toInt32OfFloat_of_lt hlo hhi),
      ⟨⟨by omega, hoffset.2⟩, timTpSeconds_eq htow hweek hoffset, by omega, hhi⟩, ?_⟩
    intro session' e' base' week' tow' _ h' hsame
    rw [taiTime_of_announces host h', hsame, hstored]

/-- **TIM-TP to TAI.** Over every run of the thread, for each time base and every 16-bit week: every
accepted message that announces a whole second obeys the law exactly when the second before its
pulse is below `2 ^ 31`. -/
theorem taiLaw_eachStep_iff (host : Host) (bypassSurvey : Bool) (es : List GnssEvent) :
    EachStep (threadSession host) (TaiLaw host) (gnssInitSession sessionZero bypassSurvey) es ↔
      EachStep (threadSession host) TaiKept (gnssInitSession sessionZero bypassSurvey) es := by
  have hstart : (gnssInitSession sessionZero bypassSurvey).LeapByte := by
    have hzero : (gnssInitSession sessionZero bypassSurvey).context.leapSeconds = 0 := rfl
    rw [GpsDeviceT.LeapByte, hzero]
    decide
  exact eachStep_congr hstart (leapByte_threadSession host) (taiLaw_iff host)

/-- A UBX-TIM-TP message of GPS time for the first second of week 3029, in January 2038. -/
def timTpWeek3029 : ParserMsgT where
  type := .ubx
  data :=
    [0xB5, 0x62, 0x0D, 0x01, 16, 0, 0, 0, 0, 0, 0, 0, 0, 0, 0, 0, 0, 0, 0xD5, 0x0B, 0, 0, 0, 0]

/-- The first message announces a pulse of week 3029. -/
theorem taiLaw_fails_week3029 :
    ¬ EachStep (threadSession hostUtc) (TaiLaw hostUtc) (gnssInitSession sessionZero false)
        [.message timTpWeek3029 none] := by
  intro h
  have hlaw := h [] (.message timTpWeek3029 none) (List.prefix_refl _) .gps 3029 0
    ⟨by decide +kernel, ⟨timTpWeek3029, rfl, by decide, by decide, by decide⟩, by decide⟩
  exact absurd hlaw.2.1.cast.2 (by decide)

end Oscillatord
