import Oscillatord.Eeprom.TemperatureSteps
import Oscillatord.Eeprom.TextFile
import Oscillatord.Library.JsonValue
import Oscillatord.Monitoring.Peer

/-!
# The response and the client

`on_peer_ready_send` answers every request with a JSON object: what the request asks for, and the
state of the server. `art_monitoring_client` takes the answer with one call of `recv`, into a
buffer of 2048 bytes that no byte terminates, and parses the string it finds there.

`ClientLaw` is that the client reads the object that was sent, whatever its buffer held. It holds
exactly when what the call returns begins with a complete object (`clientLaw_iff`). The response is
one object when the two doubles in it are printed as numbers, and the law then says that the call
returns all of it: the stream must deliver it at once, and it must fit in the buffer, which a
response with the tables of the EEPROM need not do (`clientLaw_fails_long_response`).

The JSON library is a parameter, with the printer of its objects.
-/

namespace Oscillatord

open ObjectRep CText CNumber Rounding
open JsonObject (Value setMember IsNumber MembersWellFormed membersWellFormed_iff
  membersWellFormed_setMember)

/-! ### The JSON library -/

/-- The JSON library with its printer. The text of an object begins with its brace, and is an
object for the parser when its doubles are printed as numbers; the parser takes the object that a
text begins with and leaves the rest. -/
structure JsonLibrary extends JsonTokener where
  jsonObjectToJsonString : Value → List UInt8
  head?_text : ∀ members,
    (jsonObjectToJsonString (.object members)).head? = some openingBrace
  isValue_text : ∀ members, (Value.object members).WellFormed →
    IsValue (jsonObjectToJsonString (.object members))
  parse_append : ∀ {object} (rest : List UInt8), IsValue object →
    object.head? = some openingBrace → jsonTokenerParse (object ++ rest) = jsonTokenerParse object

/-! ### The response -/

/-- `struct od_monitoring`, with the texts of its enumerations, which the library that defines them
makes. -/
structure DiscipliningData where
  clockClass : List UInt8
  status : List UInt8
  currentPhaseConvergenceCount : ℤ
  validPhaseConvergenceThreshold : ℤ
  convergenceProgress : FloatValue
  readyForHoldover : Bool

/-- What `struct gnss_state` shows. -/
structure GnssData where
  fix : ℤ
  fixOk : Bool
  antennaPower : ℤ
  antennaStatus : ℤ
  lsChange : ℤ
  leapSeconds : ℤ
  satellitesCount : ℤ
  surveyInPositionError : FloatValue
  timeAccuracy : ℤ

/-- `struct monitoring`, as far as a response shows it. -/
structure MonitoringData where
  request : MonitoringRequest
  disciplining : DiscipliningData
  fineCtrl : ℕ
  coarseCtrl : ℕ
  phaseError : ℤ
  temperature : FloatValue
  locked : Bool
  gnssInfo : GnssData
  oscillatorModel : List UInt8
  disciplineMode : Bool
  phaseErrorSupported : Bool

/-- `json_object_new_int`, whose argument is an `int32_t`. -/
def jsonObjectNewInt (n : ℤ) : Value := .int (toSigned 32 n)

/-- A `float` as the argument of `json_object_new_int`. -/
def intOfFloat : FloatValue → ℤ
  | .finite negative magnitude =>
    toInt32OfFloat (trunc (if negative then -magnitude else magnitude))
  | _ => -2 ^ 31

/-- `json_object_new_double_s`, of a number printed in a buffer of 64 bytes. -/
def jsonObjectNewDouble (x : FloatValue) : Value := .double ((fixedText 2 x).take 63)

/-- The text of a mean value, in tenths. -/
def meanValue (x : ℤ) : List UInt8 := fixedText 1 (.finite false (binary32.round (x / 10)))

section Parameters

variable {M : Minipod} (numbers : FieldNumbers M.toMinipodTypes) (steps : TemperatureSteps)

/-- The loop of `json_add_disciplining_disciplining_parameters` over the temperatures, undefined
when a key has no room in its 64 bytes. -/
def jsonTemperatureTable (tempTable : TemperatureTableV1 M.toMinipodTypes) :
    Option (List (List UInt8 × Value)) :=
  (List.finRange M.meanTemperatureArrayMax).foldlM (fun members i =>
    let mean := numbers.meanFineToInt (tempTable.meanFineOverTemperature i)
    -- what was never measured is left out
    if mean = 0 then some members
    else if (steps.range i).length < 64 then
      some (setMember members (steps.range i) (.string (meanValue mean)))
    else none) []

/-- The arrays, as members. -/
def jsonArrays (arrays : List (List UInt8 × List UInt8)) : List (List UInt8 × Value) :=
  arrays.map fun array => (array.1, .string array.2)

/-- `json_add_disciplining_disciplining_parameters`. -/
def jsonAddDiscipliningDiscipliningParameters
    (dscParams : DiscipliningParameters M.toMinipodTypes) : Option Value := do
  let dscConfig := dscParams.dscConfig
  let arrays ← jsonAddNodes numbers.nodes dscConfig
  let tempTable ← jsonTemperatureTable numbers steps dscParams.tempTable
  let calibrationParameters : List (List UInt8 × Value) :=
    [(ascii "ctrl_nodes_length", jsonObjectNewInt (M.nodesLengthToInt dscConfig.ctrlNodesLength))]
      ++ jsonArrays (arrays.take 2) ++
    [(ascii "coarse_equilibrium", .int (numbers.equilibriumToInt dscConfig.coarseEquilibrium)),
      (ascii "calibration_date", .int (numbers.dateToInt dscConfig.calibrationDate)),
      (ascii "calibration_valid", .string
        (if numbers.validToBool dscConfig.calibrationValid then ascii "True" else ascii "False")),
      (ascii "ctrl_nodes_length_factory",
        jsonObjectNewInt (M.nodesLengthToInt dscConfig.ctrlNodesLengthFactory))]
      ++ jsonArrays (arrays.drop 2) ++
    [(ascii "coarse_equilibrium_factory",
        .int (numbers.equilibriumToInt dscConfig.coarseEquilibriumFactory)),
      (ascii "estimated_equilibrium_ES",
        .int (numbers.equilibriumESToInt dscConfig.estimatedEquilibriumES))]
  return .object [(ascii "calibration_parameters", .object calibrationParameters),
    (ascii "temperature_table", .object tempTable)]

/-- What `json_handle_request` adds, with the parameters that were read from the EEPROM. -/
def jsonAnswer (dscParams : Option (DiscipliningParameters M.toMinipodTypes)) :
    RequestAnswer → Option (List (List UInt8 × Value))
  | .actionRequested text => some [(ascii "Action requested", .string (ascii text))]
  | .discipliningParameters => do
    -- the answer to `READ_EEPROM`
    let value ← jsonAddDiscipliningDiscipliningParameters numbers steps (← dscParams)
    return [(ascii "disciplining_parameters", value)]
  | .nothing => some []

end Parameters

/-- `json_add_disciplining_data`. -/
def jsonAddDiscipliningData (disciplining : DiscipliningData) : Value :=
  .object [(ascii "status", .string disciplining.status),
    (ascii "current_phase_convergence_count",
      jsonObjectNewInt disciplining.currentPhaseConvergenceCount),
    (ascii "valid_phase_convergence_threshold",
      jsonObjectNewInt disciplining.validPhaseConvergenceThreshold),
    (ascii "convergence_progress", jsonObjectNewDouble disciplining.convergenceProgress),
    (ascii "ready_for_holdover", .boolean disciplining.readyForHoldover)]

/-- `json_add_clock_data`. -/
def jsonAddClockData (monitoring : MonitoringData) : Value :=
  .object [(ascii "class", .string monitoring.disciplining.clockClass),
    (ascii "offset", jsonObjectNewInt monitoring.phaseError)]

/-- `json_add_oscillator_data`. -/
def jsonAddOscillatorData (monitoring : MonitoringData) : Value :=
  .object [(ascii "model", .string monitoring.oscillatorModel),
    (ascii "fine_ctrl", jsonObjectNewInt monitoring.fineCtrl),
    (ascii "coarse_ctrl", jsonObjectNewInt monitoring.coarseCtrl),
    (ascii "lock", .boolean monitoring.locked),
    (ascii "temperature", jsonObjectNewDouble monitoring.temperature)]

/-- `json_add_gnss_data`. -/
def jsonAddGnssData (gnssInfo : GnssData) : Value :=
  .object [(ascii "fix", jsonObjectNewInt gnssInfo.fix),
    (ascii "fixOk", .boolean gnssInfo.fixOk),
    (ascii "antenna_power", jsonObjectNewInt gnssInfo.antennaPower),
    (ascii "antenna_status", jsonObjectNewInt gnssInfo.antennaStatus),
    (ascii "lsChange", jsonObjectNewInt gnssInfo.lsChange),
    (ascii "leap_seconds", jsonObjectNewInt gnssInfo.leapSeconds),
    (ascii "satellites_count", jsonObjectNewInt gnssInfo.satellitesCount),
    (ascii "survey_in_position_error",
      jsonObjectNewInt (intOfFloat gnssInfo.surveyInPositionError)),
    (ascii "time_accuracy", jsonObjectNewInt gnssInfo.timeAccuracy)]

/-- The server shows how the disciplining is going. -/
def MonitoringData.showsDisciplining (monitoring : MonitoringData) : Bool :=
  monitoring.disciplineMode || monitoring.phaseErrorSupported

section Response

variable {M : Minipod} (numbers : FieldNumbers M.toMinipodTypes) (steps : TemperatureSteps)

/-- The members of the response of `on_peer_ready_send` to a request, with the parameters that
`read_disciplining_parameters_from_eeprom` accepts, if it does. -/
def jsonResp (monitoring : MonitoringData) (requestType : MonitoringRequest)
    (dscParams : Option (DiscipliningParameters M.toMinipodTypes)) :
    Option (List (List UInt8 × Value)) := do
  let answer ← jsonAnswer numbers steps dscParams
    (jsonHandleRequest dscParams.isSome requestType monitoring.request).1
  return answer ++
    (if monitoring.showsDisciplining then
      [(ascii "disciplining", jsonAddDiscipliningData monitoring.disciplining)] else []) ++
    [(ascii "clock", jsonAddClockData monitoring),
      (ascii "oscillator", jsonAddOscillatorData monitoring),
      (ascii "gnss", jsonAddGnssData monitoring.gnssInfo)]

end Response

/-- What `on_peer_ready_send` sends: the text of the response, up to its terminator. -/
def sentText (lib : JsonLibrary) (members : List (List UInt8 × Value)) : List UInt8 :=
  stringAt (lib.jsonObjectToJsonString (.object members))

/-! ### The client -/

/-- The size of the buffer of the client. -/
def clientBufSize : ℕ := 2048

/-- `json_send_and_receive`: the request, with the result of sending it, and what is made of the
one `recv`. `heap` is what follows the bytes that were received in memory: the buffer is not
initialised, and what is behind it is read where it has no terminator. -/
def jsonSendAndReceive (lib : JsonLibrary) (request : ℤ) (sendRet : ℤ) (heap : List UInt8)
    (outcome : RecvOutcome) : List UInt8 × Option lib.Json :=
  (stringAt (lib.jsonObjectToJsonString (.object [(ascii "request", .int request)])),
    if sendRet = -1 then none
    else match outcome with
      | .received bytes => lib.jsonTokenerParse (stringAt (bytes ++ heap))
      | _ => none)

/-! ### The law -/

/-- **The law**: the server has a response, and the client reads in its buffer the object that the
response is the text of, where the stream first delivers `count` bytes at most. -/
def ClientLaw (lib : JsonLibrary) {M : Minipod} (numbers : FieldNumbers M.toMinipodTypes)
    (steps : TemperatureSteps) (monitoring : MonitoringData) (requestType : MonitoringRequest)
    (dscParams : Option (DiscipliningParameters M.toMinipodTypes)) (count : ℕ) : Prop :=
  ∃ members object, jsonResp numbers steps monitoring requestType dscParams = some members ∧
    lib.jsonTokenerParse (sentText lib members) = some object ∧
    ∀ request sendRet heap, sendRet ≠ -1 →
      (jsonSendAndReceive lib request sendRet heap
        (.received ((sentText lib members).take (min count clientBufSize)))).2 = some object

/-- The doubles of the response are printed as numbers. -/
structure PrintsNumbers (monitoring : MonitoringData) : Prop where
  temperature : IsNumber ((fixedText 2 monitoring.temperature).take 63)
  convergenceProgress : monitoring.showsDisciplining = true →
    IsNumber ((fixedText 2 monitoring.disciplining.convergenceProgress).take 63)

/-! ### The response is an object -/

section WellFormed

variable {M : Minipod} {numbers : FieldNumbers M.toMinipodTypes} {steps : TemperatureSteps}
  {monitoring : MonitoringData} {requestType : MonitoringRequest}
  {dscParams : Option (DiscipliningParameters M.toMinipodTypes)}
  {members : List (List UInt8 × Value)}

theorem membersWellFormed_jsonTemperatureTable {tempTable : TemperatureTableV1 M.toMinipodTypes}
    (h : jsonTemperatureTable numbers steps tempTable = some members) :
    MembersWellFormed members := by
  have hloop : ∀ (indices : List (Fin M.meanTemperatureArrayMax))
      (before after : List (List UInt8 × Value)), MembersWellFormed before →
      indices.foldlM (fun members i =>
        let mean := numbers.meanFineToInt (tempTable.meanFineOverTemperature i)
        if mean = 0 then some members
        else if (steps.range i).length < 64 then
          some (setMember members (steps.range i) (.string (meanValue mean)))
        else none) before = some after → MembersWellFormed after := by
    -- on the temperatures that are left, whatever the members so far
    intro indices
    induction indices with
    | nil =>
      intro before after hbefore hafter
      exact Option.some.inj hafter ▸ hbefore
    | cons i indices ih =>
      intro before after hbefore hafter
      rw [List.foldlM_cons] at hafter
      obtain ⟨next, hnext, hafter⟩ := Option.bind_eq_some_iff.mp hafter
      refine ih next after ?_ hafter
      dsimp only at hnext
      split_ifs at hnext
      · exact Option.some.inj hnext ▸ hbefore
      · exact Option.some.inj hnext ▸ membersWellFormed_setMember hbefore trivial
  exact hloop _ [] members trivial h

theorem wellFormed_jsonAddDiscipliningDiscipliningParameters {value : Value}
    {params : DiscipliningParameters M.toMinipodTypes}
    (h : jsonAddDiscipliningDiscipliningParameters numbers steps params = some value) :
    value.WellFormed := by
  rw [jsonAddDiscipliningDiscipliningParameters] at h
  obtain ⟨arrays, -, h⟩ := Option.bind_eq_some_iff.mp h
  obtain ⟨tempTable, htable, h⟩ := Option.bind_eq_some_iff.mp h
  obtain rfl := Option.some.inj h
  have harrays : ∀ arrays, MembersWellFormed (jsonArrays arrays) := by
    intro arrays
    refine membersWellFormed_iff.mpr fun member hmem => ?_
    obtain ⟨array, -, rfl⟩ := List.mem_map.mp hmem
    trivial
  refine ⟨membersWellFormed_iff.mpr fun member hmem => ?_,
    membersWellFormed_jsonTemperatureTable htable, trivial⟩
  simp only [List.mem_append, List.mem_cons, List.not_mem_nil, or_false] at hmem
  rcases hmem with (((rfl | hmem) | rfl | rfl | rfl | rfl) | hmem) | rfl | rfl
  · trivial
  · exact membersWellFormed_iff.mp (harrays _) member hmem
  · trivial
  · trivial
  · trivial
  · trivial
  · exact membersWellFormed_iff.mp (harrays _) member hmem
  · trivial
  · trivial

/-- **The response** is well-formed when its doubles are printed as numbers. -/
theorem wellFormed_jsonResp (hprints : PrintsNumbers monitoring)
    (h : jsonResp numbers steps monitoring requestType dscParams = some members) :
    (Value.object members).WellFormed := by
  rw [jsonResp] at h
  obtain ⟨answer, hanswer, h⟩ := Option.bind_eq_some_iff.mp h
  obtain rfl := Option.some.inj h
  have hanswer' : MembersWellFormed answer := by
    rcases hrequest : (jsonHandleRequest dscParams.isSome requestType monitoring.request).1
      with text | _ | _
    · rw [hrequest] at hanswer
      exact Option.some.inj hanswer ▸ ⟨trivial, trivial⟩
    · rw [hrequest, jsonAnswer] at hanswer
      obtain ⟨params, -, hanswer⟩ := Option.bind_eq_some_iff.mp hanswer
      obtain ⟨value, hvalue, hanswer⟩ := Option.bind_eq_some_iff.mp hanswer
      exact Option.some.inj hanswer ▸
        ⟨wellFormed_jsonAddDiscipliningDiscipliningParameters hvalue, trivial⟩
    · rw [hrequest] at hanswer
      exact Option.some.inj hanswer ▸ trivial
  refine membersWellFormed_iff.mpr fun member hmem => ?_
  rw [List.mem_append, List.mem_append] at hmem
  rcases hmem with (hmem | hmem) | hmem
  · exact membersWellFormed_iff.mp hanswer' member hmem
  · split_ifs at hmem with hshows
    · obtain rfl := List.mem_singleton.mp hmem
      exact ⟨trivial, trivial, trivial, hprints.convergenceProgress hshows, trivial, trivial⟩
    · cases hmem
  · simp only [List.mem_cons, List.not_mem_nil, or_false] at hmem
    rcases hmem with rfl | rfl | rfl
    · exact ⟨trivial, trivial, trivial⟩
    · exact ⟨trivial, trivial, trivial, trivial, hprints.temperature, trivial⟩
    · exact ⟨trivial, trivial, trivial, trivial, trivial, trivial, trivial, trivial, trivial,
        trivial⟩

end WellFormed

/-! ### When the law holds -/

section Law

variable {lib : JsonLibrary} {members : List (List UInt8 × Value)}

theorem zero_notMem_sentText : 0 ∉ sentText lib members := zero_not_mem_stringAt _

theorem head?_sentText : (sentText lib members).head? = some openingBrace := by
  have hhead := lib.head?_text members
  rw [sentText, stringAt]
  rcases htext : lib.jsonObjectToJsonString (.object members) with _ | ⟨b, text⟩
  · rw [htext] at hhead
    cases hhead
  · rw [htext, List.head?_cons] at hhead
    obtain rfl := Option.some.inj hhead
    rfl

theorem head?_take_sentText {count : ℕ} (hpos : 0 < count) :
    ((sentText lib members).take count).head? = some openingBrace := by
  obtain ⟨k, rfl⟩ : ∃ k, count = k + 1 := ⟨count - 1, by omega⟩
  rw [List.head?_take, if_neg (Nat.succ_ne_zero k), head?_sentText]

/-- A text that begins with an object is read as that object, whatever follows. -/
theorem parse_of_begins {object text : List UInt8} (hobject : lib.IsObject object)
    (hpre : object <+: text) (rest : List UInt8) :
    lib.jsonTokenerParse (text ++ rest) = lib.jsonTokenerParse object := by
  obtain ⟨more, rfl⟩ := hpre
  rw [List.append_assoc]
  exact lib.parse_append _ hobject.1 hobject.2

/-- **What is read of a part of the response**, whatever was in the buffer. -/
theorem reads_take_iff {count : ℕ} (hpos : 0 < count) :
    (∃ object, lib.jsonTokenerParse (sentText lib members) = some object ∧
      ∀ request sendRet heap, sendRet ≠ -1 →
        (jsonSendAndReceive lib request sendRet heap
          (.received ((sentText lib members).take count))).2 = some object) ↔
      lib.StartsWithObject ((sentText lib members).take count) := by
  have hzero : 0 ∉ (sentText lib members).take count := fun hmem =>
    zero_notMem_sentText (List.mem_of_mem_take hmem)
  have hstring : ∀ heap, stringAt ((sentText lib members).take count ++ heap)
      = (sentText lib members).take count ++ stringAt heap := stringAt_of_not_mem hzero
  constructor
  · rintro ⟨object, -, hclient⟩
    -- a buffer that was cleared shows that the part itself is parsed
    have hread := hclient 0 0 [] (by decide)
    simp only [jsonSendAndReceive, if_neg (show (0 : ℤ) ≠ -1 by decide), hstring] at hread
    rw [show stringAt [] = [] from rfl, List.append_nil] at hread
    exact (parse_isSome_iff_startsWithObject (head?_take_sentText hpos)).mp
      (Option.isSome_of_eq_some hread)
  · rintro ⟨text, hobject, hpre⟩
    obtain ⟨object, hparse⟩ := Option.isSome_iff_exists.mp
      ((lib.parse_isSome_iff text).mpr ⟨text, hobject.1, List.prefix_refl text⟩)
    refine ⟨object, ?_, fun request sendRet heap hsend => ?_⟩
    · have hwhole := parse_of_begins hobject (hpre.trans (List.take_prefix _ _)) []
      rw [List.append_nil] at hwhole
      exact hwhole.trans hparse
    · simp only [jsonSendAndReceive, if_neg hsend, hstring]
      exact (parse_of_begins hobject hpre _).trans hparse

/-- A part of a response that is an object begins with one only when it is all of it. -/
theorem startsWithObject_take_iff (h : (Value.object members).WellFormed) {count : ℕ} :
    lib.StartsWithObject ((sentText lib members).take count) ↔
      (sentText lib members).length ≤ count := by
  have hvalue := lib.isValue_text members h
  have hzero := lib.object_nul_notMem hvalue (lib.head?_text members)
  have hsent : sentText lib members = lib.jsonObjectToJsonString (.object members) := by
    have hstring := stringAt_of_not_mem hzero []
    rwa [List.append_nil, show stringAt [] = [] from rfl, List.append_nil] at hstring
  constructor
  · rintro ⟨text, hobject, hpre⟩
    have hpre' := hpre.trans (List.take_prefix _ _)
    rw [hsent] at hpre' hpre ⊢
    -- an object that begins the response is all of it: no object is a proper beginning of another
    obtain rfl := lib.object_prefix_free hobject.1 hvalue hobject.2 (lib.head?_text members) hpre'
    exact (hpre.length_le).trans (List.length_take_le _ _)
  · intro hlength
    rw [List.take_of_length_le hlength]
    exact ⟨_, ⟨hsent ▸ hvalue, head?_sentText⟩, List.prefix_refl _⟩

end Law

section Agree

variable (lib : JsonLibrary) {M : Minipod} (numbers : FieldNumbers M.toMinipodTypes)
  (steps : TemperatureSteps) (monitoring : MonitoringData) (requestType : MonitoringRequest)
  (dscParams : Option (DiscipliningParameters M.toMinipodTypes)) {count : ℕ}

theorem clientLaw_iff_startsWithObject (hpos : 0 < count) :
    ClientLaw lib numbers steps monitoring requestType dscParams count ↔
      ∃ members, jsonResp numbers steps monitoring requestType dscParams = some members ∧
        lib.StartsWithObject ((sentText lib members).take (min count clientBufSize)) := by
  have hreceived : 0 < min count clientBufSize := by
    rw [clientBufSize]
    omega
  constructor
  · rintro ⟨members, object, hresp, hread⟩
    exact ⟨members, hresp, (reads_take_iff hreceived).mp ⟨object, hread⟩⟩
  · rintro ⟨members, hresp, hstarts⟩
    obtain ⟨object, hread⟩ := (reads_take_iff hreceived).mpr hstarts
    exact ⟨members, object, hresp, hread⟩

theorem clientLaw_iff_length_le (hprints : PrintsNumbers monitoring) (hpos : 0 < count) :
    ClientLaw lib numbers steps monitoring requestType dscParams count ↔
      ∃ members, jsonResp numbers steps monitoring requestType dscParams = some members ∧
        (sentText lib members).length ≤ min count clientBufSize := by
  rw [clientLaw_iff_startsWithObject lib numbers steps monitoring requestType dscParams hpos]
  refine exists_congr fun members => and_congr_right fun hresp => ?_
  exact startsWithObject_take_iff (wellFormed_jsonResp hprints hresp)

/-- **When client and server agree**: when what the one `recv` returns begins with a complete
object. That is, where the doubles of the response are printed as numbers, when it returns the
whole response, which is then no longer than the buffer. -/
theorem clientLaw_iff (hpos : 0 < count) :
    (ClientLaw lib numbers steps monitoring requestType dscParams count ↔
      ∃ members, jsonResp numbers steps monitoring requestType dscParams = some members ∧
        lib.StartsWithObject ((sentText lib members).take (min count clientBufSize))) ∧
    (PrintsNumbers monitoring →
      (ClientLaw lib numbers steps monitoring requestType dscParams count ↔
        ∃ members, jsonResp numbers steps monitoring requestType dscParams = some members ∧
          (sentText lib members).length ≤ min count clientBufSize)) :=
  ⟨clientLaw_iff_startsWithObject lib numbers steps monitoring requestType dscParams hpos,
    fun hprints =>
      clientLaw_iff_length_le lib numbers steps monitoring requestType dscParams hprints hpos⟩

end Agree

/-! ### Two responses -/

/-- The library of the objects, and a printer with spaces. -/
def spacedObjects : JsonLibrary where
  toJsonTokener := jsonObjects
  jsonObjectToJsonString := Value.text
  head?_text _ := by
    rw [Value.text]
    rfl
  isValue_text _ h := JsonObject.isObject_text h
  parse_append rest hobject _ := by
    have hwhole := JsonObject.IsObject.find?_inits_append hobject []
    rw [List.append_nil] at hwhole
    exact (JsonObject.IsObject.find?_inits_append hobject rest).trans hwhole.symm

/-- The state that `monitoring_init` leaves, with the disciplining on. -/
def monitoringStart : MonitoringData where
  request := .none
  disciplining :=
    { clockClass := ascii "UNCALIBRATED"
      status := ascii "WARMUP"
      currentPhaseConvergenceCount := -1
      validPhaseConvergenceThreshold := -1
      convergenceProgress := .finite false 0
      readyForHoldover := false }
  fineCtrl := 2 ^ 32 - 1
  coarseCtrl := 2 ^ 32 - 1
  phaseError := 0
  temperature := .finite true 400
  locked := false
  gnssInfo :=
    { fix := -1
      fixOk := false
      antennaPower := -1
      antennaStatus := -1
      lsChange := -10
      leapSeconds := -1
      satellitesCount := -1
      surveyInPositionError := .finite true 1
      timeAccuracy := -1 }
  oscillatorModel := ascii "mRO50"
  disciplineMode := true
  phaseErrorSupported := true

theorem printsNumbers_start : PrintsNumbers monitoringStart where
  temperature := ⟨true, 400, [48, 48], by decide +kernel, by decide +kernel⟩
  convergenceProgress _ := ⟨false, 0, [48, 48], by decide +kernel, by decide +kernel⟩

/-- Steps of a tenth of a degree. -/
def tenths : TemperatureSteps := ⟨10, 20⟩

/-- The response to a status request, delivered at once. -/
theorem clientLaw_status : ClientLaw spacedObjects packedNumbers tenths monitoringStart .none none
    clientBufSize := by
  refine ((clientLaw_iff spacedObjects packedNumbers tenths monitoringStart .none none
    (by decide)).2 printsNumbers_start).mpr ⟨_, rfl, ?_⟩
  decide +kernel

/-- Parameters of version 1 with full arrays and a full temperature table. -/
def fullParameters : DiscipliningParameters packed.toMinipodTypes where
  dscConfig :=
    { twoNodes ![100, 0, 0, 0] with
      header := 0x4F
      version := 1
      ctrlNodesLength := (![7, 0, 0, 0] : Bytes 4)
      ctrlNodesLengthFactory := (![7, 0, 0, 0] : Bytes 4)
      ctrlLoadNodes := fun _ => (![0x8F, 0xCB, 0x4E, 0xEC] : Bytes 4)
      ctrlDriftCoeffs := fun _ => (![0x8F, 0xCB, 0x4E, 0xEC] : Bytes 4)
      ctrlLoadNodesFactory := fun _ => (![0x8F, 0xCB, 0x4E, 0xEC] : Bytes 4)
      ctrlDriftCoeffsFactory := fun _ => (![0x8F, 0xCB, 0x4E, 0xEC] : Bytes 4) }
  tempTable :=
    { parametersBlank.tempTable with
      header := 0x4F
      version := 1
      meanFineOverTemperature := fun _ => (![0xFF, 0xFF] : Bytes 2) }

theorem lt_length_fullParameters :
    ((jsonResp packedNumbers tenths monitoringStart .readEeprom (some fullParameters)).all
      fun members => decide (clientBufSize < (sentText spacedObjects members).length)) = true := by
  decide +kernel

/-- The parameters are read from the EEPROM, and the response with them is longer than the buffer,
however the stream delivers it. -/
theorem clientLaw_fails_long_response :
    (∀ dscConfigData tempTable dscParams,
      readDiscipliningParametersFromEeprom packed (imageFiles packed fullParameters).1
        (imageFiles packed fullParameters).2 dscConfigData tempTable (some dscParams)
          = some (0, some fullParameters)) ∧
    ∀ count, 0 < count →
      ¬ ClientLaw spacedObjects packedNumbers tenths monitoringStart .readEeprom
        (some fullParameters) count := by
  have hcurrent : CurrentVersion fullParameters := ⟨⟨rfl, rfl⟩, rfl, rfl⟩
  refine ⟨fun dscConfigData tempTable dscParams =>
    read_write_of_current hcurrent dscConfigData tempTable dscParams, fun count hpos hlaw => ?_⟩
  obtain ⟨members, hresp, hlength⟩ := (clientLaw_iff_length_le spacedObjects packedNumbers tenths
    monitoringStart .readEeprom (some fullParameters) printsNumbers_start hpos).mp hlaw
  -- the response is longer than the buffer, so that no count is enough
  have hlong := lt_length_fullParameters
  rw [hresp, Option.all_some, decide_eq_true_eq] at hlong
  have hmin := hlength.trans (Nat.min_le_right count clientBufSize)
  omega

end Oscillatord
