import Mathlib.Data.Int.Notation
import Mathlib.Tactic.Common

/-!
# Monitoring requests

The requests a peer may make and what `json_handle_request` does with one: the answer it adds to
the response, and the new content of `monitoring->request`, the one place where a request waits
for the main loop.
-/

namespace Oscillatord

/-- `enum monitoring_request`. A value outside the enumeration, which the memory of the slot may
hold before its first write, is `unlisted`. -/
inductive MonitoringRequest
  | none
  | calibration
  | gnssStart
  | gnssStop
  | gnssSoft
  | gnssHard
  | gnssCold
  | readEeprom
  | saveEeprom
  | fakeHoldoverStart
  | fakeHoldoverStop
  | mroCoarseInc
  | mroCoarseDec
  | resetUbloxSerial
  | unlisted (code : ℤ)
  deriving Repr, DecidableEq

/-- The request a peer's number stands for. -/
def MonitoringRequest.ofInt (code : ℤ) : MonitoringRequest :=
  if code = 0 then .none
  else if code = 1 then .calibration
  else if code = 2 then .gnssStart
  else if code = 3 then .gnssStop
  else if code = 4 then .gnssSoft
  else if code = 5 then .gnssHard
  else if code = 6 then .gnssCold
  else if code = 7 then .readEeprom
  else if code = 8 then .saveEeprom
  else if code = 9 then .fakeHoldoverStart
  else if code = 10 then .fakeHoldoverStop
  else if code = 11 then .mroCoarseInc
  else if code = 12 then .mroCoarseDec
  else if code = 13 then .resetUbloxSerial
  else .unlisted code

/-- What `json_handle_request` adds to the response: the text of `"Action requested"`, the
disciplining parameters, or nothing when they cannot be read. -/
inductive RequestAnswer
  | actionRequested (text : String)
  | discipliningParameters
  | nothing
  deriving Repr, DecidableEq

/-- `json_handle_request`: the answer, and what it leaves in `*mon_request`. `eepromRead` tells
whether the disciplining parameters can be read. -/
def jsonHandleRequest (eepromRead : Bool) (requestType monRequest : MonitoringRequest) :
    RequestAnswer × MonitoringRequest :=
  match requestType with
  | .calibration => (.actionRequested "calibration", .calibration)
  | .gnssStart => (.actionRequested "GNSS start", .gnssStart)
  | .gnssStop => (.actionRequested "GNSS stop", .gnssStop)
  | .gnssSoft => (.actionRequested "GNSS soft", .gnssSoft)
  | .gnssHard => (.actionRequested "GNSS hard", .gnssHard)
  | .gnssCold => (.actionRequested "GNSS cold", .gnssCold)
  | .readEeprom => (if eepromRead then .discipliningParameters else .nothing, monRequest)
  | .saveEeprom => (.actionRequested "Save EEPROM", .saveEeprom)
  | .fakeHoldoverStart => (.actionRequested "Start fake holdover", .fakeHoldoverStart)
  | .fakeHoldoverStop => (.actionRequested "Stop fake holdover", .fakeHoldoverStop)
  | .mroCoarseInc => (.actionRequested "MRO coarse inc", .mroCoarseInc)
  | .mroCoarseDec => (.actionRequested "MRO coarse dec", .mroCoarseDec)
  | .resetUbloxSerial => (.actionRequested "Ublox Serial reset", .resetUbloxSerial)
  | .none => (.actionRequested "None", monRequest)
  | .unlisted _ => (.actionRequested "None", monRequest)

/-- The requests that ask the main loop for an action. -/
def MonitoringRequest.isAction : MonitoringRequest → Bool
  | .none | .readEeprom | .unlisted _ => false
  | _ => true

/-- An action is left in the slot; any other request leaves the slot as it was. -/
theorem jsonHandleRequest_snd (eepromRead : Bool) (requestType monRequest : MonitoringRequest) :
    (jsonHandleRequest eepromRead requestType monRequest).2 =
      if requestType.isAction then requestType else monRequest := by
  cases requestType <;> rfl

end Oscillatord
