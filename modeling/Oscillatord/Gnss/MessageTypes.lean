import Oscillatord.Gnss.LeapWarning
import Oscillatord.Library.Rounding

/-!
# Messages that are not UBX

The receive library delivers frames of four types, and `gnss_thread` forwards those of one of
them by their type. The branch that analyses a message looks at the bytes 2 and 3 instead, of
whatever frame it is given, and at its size. `gnssThreadMessage` is that branch on the whole
session, the error of the survey included, and on a message in the buffer it was delivered in:
in a message of less than four bytes, the class and the id are read beyond its end.

A message leaves every session alone exactly when it does not coincide with one of the four
messages the daemon decodes (`keepsSession_iff`). Its type has no part in it, so the law that only
UBX messages change the state holds of a message of another type on that same condition
(`onlyUbxChanges_iff`).
-/

namespace Oscillatord

open CNumber Rounding

/-! ### The whole session -/

/-- A message, and the bytes that follow it in the buffer of the receive library. -/
structure DeliveredMsg where
  msg : ParserMsgT
  beyond : List UInt8
  deriving Repr, DecidableEq

/-- `UBX_CLSID`. -/
def DeliveredMsg.clsId (d : DeliveredMsg) : UInt8 := loadByte (d.msg.data ++ d.beyond) 2

/-- `UBX_MSGID`. -/
def DeliveredMsg.msgId (d : DeliveredMsg) : UInt8 := loadByte (d.msg.data ++ d.beyond) 3

/-- The session with its `survey_in_position_error`. -/
structure SurveyedSession where
  device : GpsDeviceT
  surveyInPositionError : ℚ

/-- `sqrt` of an unsigned integer of 32 bits. The root to 60 binary places lies on the same side
of every value halfway between two doubles; where it is not exact, the middle of the last place
stands for it. -/
def sqrtDouble (n : ℕ) : ℚ :=
  let root := Nat.sqrt (n * 4 ^ 60)
  if root * root = n * 4 ^ 60 then binary64.round (root / 2 ^ 60)
  else binary64.round ((2 * root + 1) / 2 ^ 61)

/-- The error of the survey that `gnss_parse_ubx_tim_svin` stores, `none` for a message of
another size. -/
def timSvinPositionError (msg : ParserMsgT) : Option ℚ :=
  if msg.size = 28 + ubxFrameSize then
    let meanV := loadU msg.data (ubxHeadSize + 16) 4
    some (binary32.round (binary64.round (sqrtDouble meanV.toNat / 1000)))
  else none

/-- The branch of `gnss_thread` for a message that completes no epoch, by the class and the id. -/
def gnssAnalyze (clsId msgId : UInt8) (session : SurveyedSession) (msg : ParserMsgT) :
    SurveyedSession × List GnssSignal :=
  if clsId = 0x0a ∧ msgId = 0x38 then
    let device := gnssGetAntennaData session.device msg
    if device.antennaPower = 0 then
      ({ session with device := gnssResetSessionNavigationData device }, [.condData])
    else ({ session with device }, [])
  else if clsId = 0x01 ∧ msgId = 0x26 then
    ({ session with device := gnssParseUbxNavTimels session.device msg }, [])
  else if clsId = 0x0d ∧ msgId = 0x01 then
    ({ session with device := gnssParseUbxTimTp session.device msg }, [])
  else if clsId = 0x0d ∧ msgId = 0x04 then
    let session := { session with
      surveyInPositionError := (timSvinPositionError msg).getD session.surveyInPositionError }
    if !session.device.surveyCompleted && !session.device.bypassSurvey then
      match gnssParseUbxTimSvin msg with
      | .completed => ({ session with device.surveyCompleted := true }, [])
      | _ => (session, [])
    else (session, [])
  else (session, [])

/-- The message-handling step of `gnss_thread` when `epochCollect` returns false. -/
def gnssThreadMessage (session : SurveyedSession) (d : DeliveredMsg) :
    SurveyedSession × List GnssSignal :=
  gnssAnalyze d.clsId d.msgId session d.msg

/-! ### Messages that are left alone -/

/-- The message changes no session and signals nothing. -/
def KeepsSession (d : DeliveredMsg) : Prop :=
  ∀ session : SurveyedSession, gnssThreadMessage session d = (session, [])

/-- **The law**: only UBX messages change the state. -/
def OnlyUbxChanges (d : DeliveredMsg) : Prop := d.msg.type ≠ .ubx → KeepsSession d

/-- The time base of a UBX-TIM-TP message is one the daemon has an offset for, once it knows the
leap seconds. -/
def ParserMsgT.KnownTimeBase (msg : ParserMsgT) : Prop :=
  (loadByte msg.data (ubxHeadSize + 14)).toNat.testBit 0 = true ∨
    (loadByte msg.data (ubxHeadSize + 15)).toNat % 16 < 4

/-- The bytes read as class and id, and the size, are those of a message the daemon decodes. The
size is not looked at for UBX-NAV-TIMELS, where any other one clears the event, nor for
UBX-MON-RF, where the navigation data are reset whenever the antenna is known to be off. -/
inductive Coincides (d : DeliveredMsg) : Prop
  | monRf (class_id : d.clsId = 0x0a ∧ d.msgId = 0x38)
  | navTimels (class_id : d.clsId = 0x01 ∧ d.msgId = 0x26)
  | timTp (class_id : d.clsId = 0x0d ∧ d.msgId = 0x01) (size : d.msg.size = 16 + ubxFrameSize)
      (timeBase : d.msg.KnownTimeBase)
  | timSvin (class_id : d.clsId = 0x0d ∧ d.msgId = 0x04) (size : d.msg.size = 28 + ubxFrameSize)

/-- With the leap seconds known, a known time base is accepted. -/
theorem exists_timTpOffset {context : GpsContextT} (hset : context.lsset = true)
    {flags refInfo : ℕ} (h : flags.testBit 0 = true ∨ refInfo % 16 < 4) :
    ∃ offset, timTpOffset context flags refInfo = some offset := by
  simp only [timTpOffset, hset, if_true]
  split_ifs with hutc
  · exact ⟨_, rfl⟩
  · have hlt : refInfo % 16 < 4 := h.resolve_left hutc
    obtain hn | hn | hn | hn : refInfo % 16 = 0 ∨ refInfo % 16 = 1 ∨ refInfo % 16 = 2 ∨
      refInfo % 16 = 3 := by omega
    all_goals
      rw [hn]
      exact ⟨_, rfl⟩

/-- An unknown one is not accepted in any session. -/
theorem timTpOffset_eq_none {context : GpsContextT} {flags refInfo : ℕ}
    (h : ¬ (flags.testBit 0 = true ∨ refInfo % 16 < 4)) :
    timTpOffset context flags refInfo = none := by
  obtain ⟨hutc, hlarge⟩ := not_or.mp h
  rw [timTpOffset, if_neg hutc]
  split <;> first | omega | rfl

/-- Two sessions that differ in a field each of the four parsers overwrites. -/
def sessionTraced (n : ℕ) : SurveyedSession :=
  { device :=
      { sessionZero with
        antennaStatus := n
        taiTimeSet := decide (n ≠ 0)
        context := { sessionZero.context with lsset := true, timeToLsEvent := n } }
    surveyInPositionError := n }

/-- A message that brings two sessions to the same value of a field they differ in does not keep
both. -/
theorem not_keepsSession_of_overwritten {α : Type} {d : DeliveredMsg} (f : SurveyedSession → α)
    (hne : f (sessionTraced 0) ≠ f (sessionTraced 1))
    (h : f (gnssThreadMessage (sessionTraced 0) d).1 =
      f (gnssThreadMessage (sessionTraced 1) d).1) :
    ¬ KeepsSession d := by
  intro hkeeps
  rw [hkeeps, hkeeps] at h
  exact hne h

/-- A message that coincides with one the daemon decodes leaves a trace on some session. -/
theorem Coincides.not_keepsSession {d : DeliveredMsg} (h : Coincides d) : ¬ KeepsSession d := by
  cases h with
  | monRf hclass =>
    by_cases hsize : d.msg.size > ubxFrameSize + 4 ∧ d.msg.size ≥ 4 + ubxFrameSize
    · refine not_keepsSession_of_overwritten (fun s => s.device.antennaStatus) (by decide) ?_
      simp only [gnssThreadMessage, gnssAnalyze, if_pos hclass, gnssGetAntennaData, if_pos hsize]
      split_ifs <;> rfl
    · -- The antenna of this session is off: it is reset once more.
      intro hkeeps
      have hsignal := congrArg Prod.snd (hkeeps (sessionTraced 0))
      have hoff : (sessionTraced 0).device.antennaPower = 0 := rfl
      simp [gnssThreadMessage, gnssAnalyze, hclass, gnssGetAntennaData, hsize, hoff] at hsignal
  | navTimels hclass =>
    refine not_keepsSession_of_overwritten (fun s => s.device.context.timeToLsEvent)
      (by decide) ?_
    simp only [gnssThreadMessage, gnssAnalyze, hclass, gnssParseUbxNavTimels_eq]
    rcases navTimelsOf d.msg with _ | timels
    · rfl
    · rfl
  | timTp hclass hsize htimeBase =>
    refine not_keepsSession_of_overwritten (fun s => s.device.taiTimeSet) (by decide) ?_
    have hset : ∀ n, (gnssParseUbxTimTp (sessionTraced n).device d.msg).taiTimeSet = true := by
      intro n
      have hlsset : (sessionTraced n).device.context.lsset = true := rfl
      obtain ⟨offset, hoffset⟩ := exists_timTpOffset hlsset htimeBase
      simp only [gnssParseUbxTimTp, if_pos hsize, hoffset, GpsDeviceT.storeTimTp]
    simp [gnssThreadMessage, gnssAnalyze, hclass, hset]
  | timSvin hclass hsize =>
    refine not_keepsSession_of_overwritten (fun s => s.surveyInPositionError) 
      (by simp [sessionTraced]) ?_
    simp only [gnssThreadMessage, gnssAnalyze, hclass, timSvinPositionError, if_pos hsize]
    cases gnssParseUbxTimSvin d.msg <;> rfl

/-- **Messages that change the state.** A message changes no session and signals nothing exactly
when it does not coincide with one of the four messages the daemon decodes. -/
theorem keepsSession_iff (d : DeliveredMsg) : KeepsSession d ↔ ¬ Coincides d := by
  refine ⟨fun hkeeps h => h.not_keepsSession hkeeps, fun h session => ?_⟩
  rw [gnssThreadMessage, gnssAnalyze]
  split_ifs with hrf htimels htp hsvin
  · exact absurd (.monRf hrf) h
  · exact absurd (.navTimels htimels) h
  · have hkept : gnssParseUbxTimTp session.device d.msg = session.device := by
      rw [gnssParseUbxTimTp]
      split_ifs with hsize
      · simp only [timTpOffset_eq_none fun hbase => h (.timTp htp hsize hbase)]
      · rfl
    rw [hkept]
  · have hsize : ¬ d.msg.size = 28 + ubxFrameSize := fun hsize => h (.timSvin hsvin hsize)
    simp only [timSvinPositionError, gnssParseUbxTimSvin, if_neg hsize, Option.getD_none]
    split_ifs <;> rfl
  · rfl

/-- **Only UBX messages change the state**, exactly as long as no message of another type
coincides with one the daemon decodes. -/
theorem onlyUbxChanges_iff (d : DeliveredMsg) :
    OnlyUbxChanges d ↔ (d.msg.type = .ubx ∨ ¬ Coincides d) := by
  rw [OnlyUbxChanges, keepsSession_iff]
  tauto

/-- A frame the library rejects, for its checksum, and delivers as garbage. -/
def corruptedTimels : DeliveredMsg :=
  { msg := { timelsFrame 1 with type := .garbage }, beyond := [] }

/-- It announces a leap second all the same. -/
theorem onlyUbxChanges_fails_garbage : ¬ OnlyUbxChanges corruptedTimels := by
  intro h
  have hkept := h (by decide) (sessionTraced 0)
  have hnotify := congrArg (fun s => s.1.device.context.leapNotify) hkept
  exact absurd hnotify (by decide)

end Oscillatord
