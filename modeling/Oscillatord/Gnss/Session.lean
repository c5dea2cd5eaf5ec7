import Oscillatord.Library.CNumbers

/-!
# The GNSS session and the receiver messages that change it

`GpsDeviceT` and `GpsContextT` are the session of the daemon (`struct gps_device_t`,
`struct gps_context_t`), restricted to the fields `gnss_thread` reads or writes; the fields of
the NTP shared-memory service and the float `survey_in_position_error` are left out. `EpochT` is
a navigation epoch as the receive library collects it, `ParserMsgT` a message as it delivers it.

The parsers of the four UBX messages the daemon decodes itself are translated field by field:
payload offsets are those of the UBX protocol, counted from the end of the six byte header.
-/

namespace Oscillatord

open CNumber

/-! ### Constants -/

/-- A navigation is used from strictly more satellites than this (`NUM_SAT_MIN`). -/
def numSatMin : ℤ := 3

/-- Fix value of an epoch without a fix (`NO_FIX`). -/
def noFix : ℤ := 1

/-- Fix value of a time-only fix (`EPOCH_FIX_TIME`), the fourth entry of `fix_log`. -/
def epochFixTime : ℤ := 3

/-- Largest quantization error kept, in picoseconds (`QERR_ABS_THRESHOLD_PS`). -/
def qErrAbsThresholdPs : ℤ := 5000

/-- `SEC_IN_WEEK`. -/
def secInWeek : ℤ := 604800

/-- `GPS_EPOCH_TO_TAI`. -/
def gpsEpochToTai : ℤ := 315964819

/-- `GAL_EPOCH_TO_TAI`. -/
def galEpochToTai : ℤ := 619315200 + gpsEpochToTai

/-- `BDS_EPOCH_TO_TAI`. -/
def bdsEpochToTai : ℤ := 820108814 + gpsEpochToTai

/-- `GLO_EPOCH_TO_TAI`. -/
def gloEpochToTai : ℤ := 315954019

/-- `SVIN_MIN_DUR`. -/
def svinMinDur : ℤ := 1200

/-- `SVIN_MAX_DUR`. -/
def svinMaxDur : ℤ := svinMinDur + 600

/-! ### Data -/

/-- A `struct timespec`. -/
structure Timespec where
  tvSec : ℤ
  tvNsec : ℤ
  deriving Repr, DecidableEq

/-- The leap second warning of the NTP segment (`LEAP_*`). -/
inductive LeapNotify
  | noWarning
  | addSecond
  | delSecond
  | notInSync
  deriving Repr, DecidableEq

/-- `struct gps_context_t`: the data shared by the receiver messages. -/
structure GpsContextT where
  qErr : ℤ
  qErrLastEpoch : ℤ
  leapSeconds : ℤ
  leapNotify : LeapNotify
  lsChange : ℤ
  timeToLsEvent : ℤ
  lsset : Bool
  deriving Repr, DecidableEq

/-- `struct gps_device_t`: the state of the receiver as the daemon sees it. -/
structure GpsDeviceT where
  context : GpsContextT
  lastFixUtcTime : Timespec
  fix : ℤ
  fixOk : Bool
  antennaStatus : ℤ
  antennaPower : ℤ
  valid : Bool
  taiTimeSet : Bool
  taiTime : ℤ
  satellitesCount : ℤ
  bypassSurvey : Bool
  surveyCompleted : Bool
  positionAccuracy : ℤ
  timeAccuracy : ℤ
  deriving Repr, DecidableEq

/-- `EPOCH_t`, the navigation epoch of the receive library. `posAcc` and `timeAcc` are the
values of `(int64_t) epoch.posAcc` and of the scaled `(int64_t) (epoch.timeAcc / …)`. -/
structure EpochT where
  haveNumSv : Bool
  numSv : ℤ
  haveFix : Bool
  fix : ℤ
  fixOk : Bool
  havePos : Bool
  posAcc : ℤ
  haveTime : Bool
  timeAcc : ℤ
  year : ℤ
  month : ℤ
  day : ℤ
  hour : ℤ
  minute : ℤ
  second : ℚ
  deriving Repr, DecidableEq

/-- `PARSER_MSGTYPE_*`. -/
inductive ParserMsgType
  | garbage
  | ubx
  | nmea
  | rtcm3
  deriving Repr, DecidableEq

/-- `PARSER_MSG_t`: one message cut out of the serial stream, whole frame included. -/
structure ParserMsgT where
  type : ParserMsgType
  data : List UInt8
  deriving Repr, DecidableEq

/-- `msg->size`. -/
def ParserMsgT.size (msg : ParserMsgT) : ℤ := msg.data.length

/-- A `struct tm` as `gnss_get_utc_time` fills it. -/
structure Tm where
  tmYear : ℤ
  tmMon : ℤ
  tmMday : ℤ
  tmHour : ℤ
  tmMin : ℤ
  tmSec : ℤ
  tmIsdst : ℤ
  deriving Repr, DecidableEq

/-- The time zone of the host, which the C library applies: `mktime`, and the `tm_gmtoff` of the
local time of an instant. -/
structure Host where
  mktime : Tm → ℤ
  gmtoff : ℤ → ℤ

/-! ### Epochs -/

/-- `gnss_get_satellites`. -/
def gnssGetSatellites (epoch : EpochT) : ℤ :=
  if epoch.haveNumSv then epoch.numSv else 0

/-- `gnss_get_utc_time`: `mktime` reads the UTC fields as local time, and the offset of that
instant is added back. -/
def gnssGetUtcTime (host : Host) (epoch : EpochT) : ℤ :=
  let time := host.mktime
    { tmYear := epoch.year - 1900
      tmMon := epoch.month - 1
      tmMday := epoch.day
      tmHour := epoch.hour
      tmMin := epoch.minute
      tmSec := CNumber.round epoch.second
      tmIsdst := -1 }
  time + host.gmtoff time

/-- `gnss_reset_session_navigation_data`. -/
def gnssResetSessionNavigationData (session : GpsDeviceT) : GpsDeviceT :=
  { session with valid := false, satellitesCount := 0, fix := noFix, fixOk := false }

/-! ### Parsers -/

/-- Bytes of a UBX frame before its payload (`UBX_HEAD_SIZE`). -/
def ubxHeadSize : ℕ := 6

/-- Bytes of a UBX frame around its payload (`UBX_FRAME_SIZE`). -/
def ubxFrameSize : ℕ := 8

/-- `gnss_parse_ubx_nav_timels`. -/
def gnssParseUbxNavTimels (session : GpsDeviceT) (msg : ParserMsgT) : GpsDeviceT :=
  let noEvent (context : GpsContextT) : GpsDeviceT :=
    { session with
      context := { context with timeToLsEvent := 0, lsChange := 0, leapNotify := .noWarning } }
  if msg.size = 24 + ubxFrameSize then
    let currLs := loadI msg.data (ubxHeadSize + 9) 1
    let lsChange := loadI msg.data (ubxHeadSize + 11) 1
    let timeToLsEvent := loadI msg.data (ubxHeadSize + 12) 4
    let valid := (loadByte msg.data (ubxHeadSize + 23)).toNat
    let context := { session.context with
      leapSeconds := if valid.testBit 0 then currLs else 0
      lsset := valid.testBit 0 }
    if valid.testBit 1 then
      let context := { context with timeToLsEvent := timeToLsEvent, lsChange := lsChange }
      let leapNotify :=
        if lsChange ≠ 0 ∧ 0 < timeToLsEvent ∧ timeToLsEvent < 60 * 60 * 23 then
          if lsChange = 1 then .addSecond
          else if lsChange = -1 then .delSecond
          else context.leapNotify
        else .noWarning
      { session with context := { context with leapNotify := leapNotify } }
    else noEvent context
  else noEvent session.context

/-- The offset of a UBX-TIM-TP time base to TAI, `none` where the message is rejected. An
unlisted time base cannot occur: the flag is one bit. -/
def timTpOffset (context : GpsContextT) (flags refInfo : ℕ) : Option ℤ :=
  if flags.testBit 0 then
    if context.lsset then some (gpsEpochToTai + context.leapSeconds) else none
  else
    match refInfo % 16 with
    | 0 => some gpsEpochToTai
    | 1 => if context.lsset then some (gloEpochToTai + context.leapSeconds) else none
    | 2 => some bdsEpochToTai
    | 3 => some galEpochToTai
    | _ => none

/-- The fields an accepted UBX-TIM-TP message updates: the quantization error of the last epoch
is kept when the new one comes in. -/
def GpsDeviceT.storeTimTp (session : GpsDeviceT) (taiTime qErr : ℤ) : GpsDeviceT :=
  { session with
    taiTime := taiTime
    context := { session.context with qErrLastEpoch := session.context.qErr, qErr := qErr }
    taiTimeSet := true }

/-- `gnss_parse_ubx_tim_tp`: the time of the next pulse, and the quantization error of the last
one, discarded when aberrant. -/
def gnssParseUbxTimTp (session : GpsDeviceT) (msg : ParserMsgT) : GpsDeviceT :=
  if msg.size = 16 + ubxFrameSize then
    let towMs := loadU msg.data ubxHeadSize 4
    let qErr := loadI msg.data (ubxHeadSize + 8) 4
    let week := loadU msg.data (ubxHeadSize + 12) 2
    let flags := (loadByte msg.data (ubxHeadSize + 14)).toNat
    let refInfo := (loadByte msg.data (ubxHeadSize + 15)).toNat
    let qErr := if qErrAbsThresholdPs < abs32 qErr then 0 else qErr
    match timTpOffset session.context flags refInfo with
    | none => session
    | some offset =>
      let seconds : ℚ := (towMs : ℚ) / 1000 + week * secInWeek + offset - 1
      session.storeTimTp (toInt32OfFloat (CNumber.round seconds)) qErr
  else session

/-- `enum SurveyInState`. -/
inductive SurveyInState
  | ko
  | unknown
  | inProgress
  | completed
  deriving Repr, DecidableEq

/-- `gnss_parse_ubx_tim_svin`. -/
def gnssParseUbxTimSvin (msg : ParserMsgT) : SurveyInState :=
  if msg.size = 28 + ubxFrameSize then
    let dur := loadU msg.data ubxHeadSize 4
    let valid := loadByte msg.data (ubxHeadSize + 24)
    let active := loadByte msg.data (ubxHeadSize + 25)
    if active = 0 ∧ svinMinDur ≤ dur then
      if valid ≠ 0 then .completed else .ko
    else if dur < svinMaxDur then .inProgress
    else .ko
  else .unknown

/-- The worst-of-two rule `gnss_get_antenna_data` applies to each block: `0x5` is the value
before the first block, and `0x2` is kept only until another value comes. -/
def antennaWorst (current new : ℤ) : ℤ :=
  if current = 5 ∨ (current = 2 ∧ new ≠ 2) then new else current

/-- The `antStatus` and `antPower` of the RF blocks of a UBX-MON-RF frame, each of 24 bytes: the
loop takes a block at `offs` as long as `offs + 24` does not reach into the checksum. -/
def antennaBlocks (data : List UInt8) : List (UInt8 × UInt8) :=
  (List.range ((data.length - 2 - (ubxHeadSize + 4)) / 24)).map fun k =>
    let offs := ubxHeadSize + 4 + 24 * k
    (loadByte data (offs + 2), loadByte data (offs + 3))

/-- `gnss_get_antenna_data`. The statuses are bytes stored in an `int8_t`. -/
def gnssGetAntennaData (session : GpsDeviceT) (msg : ParserMsgT) : GpsDeviceT :=
  if msg.size > ubxFrameSize + 4 ∧ msg.size ≥ 4 + ubxFrameSize then
    let blocks := antennaBlocks msg.data
    { session with
      antennaStatus := blocks.foldl
        (fun status block => toSigned 8 (antennaWorst status block.1.toNat)) 5
      antennaPower := blocks.foldl
        (fun power block => toSigned 8 (antennaWorst power block.2.toNat)) 5 }
  else session

end Oscillatord
