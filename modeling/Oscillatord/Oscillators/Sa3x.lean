import Mathlib.Data.Rat.Floor
import Oscillatord.Library.FormatScan
import Oscillatord.Library.Rounding
import Oscillatord.Library.Runs

/-!
# The lock report of the SA3x

`sa3x_oscillator_parse_attributes` reports whether the clock is locked, from the telemetry line it
asks for or from the last one parsed, when that is recent. A run is any sequence of calls, given by
the time that passes before and in each one and by what the device answers; it is observed with
the last line that was parsed.

The law, `LockLaw`, is that the clock is reported locked exactly when the line in use has the BITE
character `0`, and that a line which does not parse changes no later report. The driver compares
the character with the number zero. So a line with BITE `0` is reported unlocked, and the zeros of
`calloc`, in use before the clock of the machine reaches `SETTLING_TIME`, are reported locked;
the law holds exactly of the runs without either, whose lines fit the driver's arrays
(`lockLaw_eachStep_iff`). The second part of the law always holds: what a line leaves behind that
does not parse is stale, and the next line that parses replaces it.
-/

namespace Oscillatord

open CText FormatScan Rounding StepRun

/-! ### The driver -/

/-- `struct sa3x_attributes`, its arrays as the strings they hold. -/
structure Sa3xAttributes where
  bite : UInt8
  version : List UInt8
  serial : List UInt8
  teccontrol : ℤ
  rfcontrol : ℤ
  ddscurrent : ℤ
  cellcurrent : ℤ
  dcsignal : ℤ
  temperature : ℤ
  digitaltuning : ℤ
  analogtuningon : UInt8
  analogtuning : ℤ
  deriving Repr, DecidableEq

/-- `struct sa3x_oscillator`; of `attr_time` it is the seconds that count. -/
structure Sa3x where
  attributes : Sa3xAttributes
  attrTime : ℕ
  deriving Repr, DecidableEq

/-- What `calloc` leaves in `sa3x_oscillator_new`. -/
def sa3xStart : Sa3x where
  attributes :=
    { bite := 0, version := [], serial := [], teccontrol := 0, rfcontrol := 0, ddscurrent := 0,
      cellcurrent := 0, dcsignal := 0, temperature := 0, digitaltuning := 0, analogtuningon := 0,
      analogtuning := 0 }
  attrTime := 0

/-- `sa3x_timediff`. -/
def sa3xTimediff (ts0 ts1 : ℕ) : ℕ := if ts0 > ts1 then ts0 - ts1 else ts1 - ts0

/-- The conversions of the telemetry format, `"%c,%[^,],%[^,],%d,%d,%d,%d,%d,%d,%d,%c,%d"`. -/
def telemetryFormat : List (FormatScan.Conversion Sa3xAttributes) :=
  [char fun b a => { a with bite := b },
    textUntil 0x2c 5 fun field a => { a with version := field },
    textUntil 0x2c 12 fun field a => { a with serial := field },
    int fun n a => { a with teccontrol := n },
    int fun n a => { a with rfcontrol := n },
    int fun n a => { a with ddscurrent := n },
    int fun n a => { a with cellcurrent := n },
    int fun n a => { a with dcsignal := n },
    int fun n a => { a with temperature := n },
    int fun n a => { a with digitaltuning := n },
    char fun b a => { a with analogtuningon := b },
    int fun n a => { a with analogtuning := n }]

/-- What `sscanf` stores of a line. -/
def telemetry (line : List UInt8) : List (Store Sa3xAttributes) :=
  scan 0x2c telemetryFormat (cString line)

/-- The line ends within its 128 bytes, and what is stored of it fits. -/
def TelemetryDefined (line : List UInt8) : Prop :=
  (line.length < 128 ∨ 0 ∈ line) ∧ ∀ store ∈ telemetry line, store.fits = true

instance (line : List UInt8) : Decidable (TelemetryDefined line) :=
  inferInstanceAs (Decidable (_ ∧ _))

/-- What the device does when it is asked for telemetry. An empty line is the end of the file. -/
inductive Sa3xAnswer
  | writeError
  | pollTimeout
  | pollError
  | readError
  | line (bytes : List UInt8)
  deriving Repr, DecidableEq

/-- `sa3x_oscillator_get_attributes`, at the two times it reads the clock: the driver after it and
the attributes it returns. It is undefined when it reads or writes outside its arrays. -/
def Sa3x.oscillatorGetAttributes (settlingTime : ℕ) (s : Sa3x) (now later : ℕ)
    (answer : Sa3xAnswer) : Option (Sa3x × Option Sa3xAttributes) :=
  if sa3xTimediff now s.attrTime < settlingTime then some (s, some s.attributes)
  else
    match answer with
    | .writeError | .pollTimeout | .pollError | .readError => some (s, none)
    | .line bytes =>
      if bytes = [] then some (s, none)
      else if TelemetryDefined bytes then
        -- The values before the place where a line stops to match are stored all the same.
        let attributes := storeAll (telemetry bytes) s.attributes
        if (telemetry bytes).length < 9 then some ({ s with attributes := attributes }, none)
        else some ({ attributes := attributes, attrTime := later }, some attributes)
      else none

/-- What `sa3x_oscillator_parse_attributes` reports. -/
structure Sa3xReport where
  locked : Bool
  temperature : ℚ
  deriving Repr, DecidableEq

/-- The report from the attributes, or without any. -/
def sa3xReportOf : Option Sa3xAttributes → Sa3xReport
  | some a => { locked := a.bite == 0, temperature := binary64.round (a.temperature / 1000) }
  | none => { locked := false, temperature := -400 }

/-- `sa3x_oscillator_parse_attributes`. -/
def Sa3x.oscillatorParseAttributes (settlingTime : ℕ) (s : Sa3x) (now later : ℕ)
    (answer : Sa3xAnswer) : Option (Sa3x × Sa3xReport) :=
  (s.oscillatorGetAttributes settlingTime now later answer).map fun result =>
    (result.1, sa3xReportOf result.2)

/-! ### Runs -/

/-- A call: the seconds that pass before it, what the device answers if it is asked, and the seconds
until the clock is read again. -/
structure Sa3xCall where
  waited : ℕ
  answer : Sa3xAnswer
  took : ℕ
  deriving Repr, DecidableEq

/-- The line of an answer, if it is parsed. -/
def Sa3xAnswer.parsed : Sa3xAnswer → Option (List UInt8)
  | .line bytes =>
    if TelemetryDefined bytes ∧ 9 ≤ (telemetry bytes).length then some bytes else none
  | _ => none

/-- What the driver does with the answer is defined. -/
def Sa3xAnswer.Defined : Sa3xAnswer → Prop
  | .line bytes => bytes = [] ∨ TelemetryDefined bytes
  | _ => True

/-- A run: the driver, the time, and the last line that was parsed with the time of that. -/
structure Sa3xRun where
  driver : Sa3x
  clock : ℕ
  latest : Option (ℕ × List UInt8)
  deriving Repr, DecidableEq

/-- A new driver, at any time. -/
def sa3xRunStart (clock : ℕ) : Sa3xRun where
  driver := sa3xStart
  clock := clock
  latest := none

namespace Sa3xRun

variable (settlingTime : ℕ) (r : Sa3xRun) (call : Sa3xCall)

/-- The time of the call. -/
def now : ℕ := r.clock + call.waited

/-- The time at its end. -/
def later : ℕ := r.now call + call.took

/-- The attributes are not recent: the device is asked. -/
def Asks : Prop := settlingTime ≤ sa3xTimediff (r.now call) r.driver.attrTime

instance : Decidable (r.Asks settlingTime call) := inferInstanceAs (Decidable (_ ≤ _))

/-- The call. -/
def parse : Option (Sa3x × Sa3xReport) :=
  r.driver.oscillatorParseAttributes settlingTime (r.now call) (r.later call) call.answer

/-- The line obtained and parsed in the call. -/
def obtained : Option (List UInt8) := if r.Asks settlingTime call then call.answer.parsed else none

end Sa3xRun

/-- The run after a call. It stays where it is if the call is undefined. -/
def sa3xStep (settlingTime : ℕ) (r : Sa3xRun) (call : Sa3xCall) : Sa3xRun where
  driver := ((r.parse settlingTime call).map Prod.fst).getD r.driver
  clock := r.later call
  latest :=
    match r.obtained settlingTime call with
    | some line => some (r.later call, line)
    | none => r.latest

/-- What calls report, from a driver at a time. -/
def sa3xReports (settlingTime : ℕ) : Sa3x → ℕ → List Sa3xCall → List (Option Sa3xReport)
  | _, _, [] => []
  | s, clock, call :: calls =>
    let now := clock + call.waited
    let later := now + call.took
    match s.oscillatorParseAttributes settlingTime now later call.answer with
    | some (s', report) => some report :: sa3xReports settlingTime s' later calls
    | none => none :: sa3xReports settlingTime s later calls

/-- The line a call reports on has BITE `0`: the last one parsed, in the call or recently. -/
def Sa3xRun.InLock (settlingTime : ℕ) (r : Sa3xRun) (call : Sa3xCall) : Prop :=
  ∃ time line, (sa3xStep settlingTime r call).latest = some (time, line) ∧
    ((r.obtained settlingTime call).isSome ∨ sa3xTimediff (r.now call) time < settlingTime) ∧
    line.head? = some 0x30

/-- **The law of the lock report**: the clock is reported locked when the line in use has BITE `0`,
and a line that does not parse changes no later report. -/
structure LockLaw (settlingTime : ℕ) (r : Sa3xRun) (call : Sa3xCall) : Prop where
  lock : ∃ driver report, r.parse settlingTime call = some (driver, report) ∧
    (report.locked = true ↔ r.InLock settlingTime call)
  kept : ∀ bytes, r.Asks settlingTime call → call.answer = .line bytes →
    call.answer.parsed = none → ∀ calls,
      sa3xReports settlingTime (sa3xStep settlingTime r call).driver (r.later call) calls =
        sa3xReports settlingTime r.driver (r.later call) calls

/-- What the device answers is defined and not parsed with BITE `0`; where it is not asked, a line
was parsed before, and its BITE is not `0` either. -/
structure LockCondition (settlingTime : ℕ) (r : Sa3xRun) (call : Sa3xCall) : Prop where
  asked : r.Asks settlingTime call →
    call.answer.Defined ∧ ∀ line, call.answer.parsed = some line → line.head? ≠ some 0x30
  recent : ¬ r.Asks settlingTime call →
    ∃ time line, r.latest = some (time, line) ∧ line.head? ≠ some 0x30

/-! ### The telemetry -/

theorem sa3xTimediff_of_le {ts0 ts1 : ℕ} (h : ts1 ≤ ts0) : sa3xTimediff ts0 ts1 = ts0 - ts1 := by
  unfold sa3xTimediff
  split_ifs <;> omega

/-- The first character of a line is not the NUL that would end it, and is its BITE. -/
theorem bite_telemetry {line : List UInt8} (h : 0 < (telemetry line).length) :
    ∃ b, b ≠ 0 ∧ line.head? = some b ∧ ∀ a, (storeAll (telemetry line) a).bite = b := by
  have hkeeps : ∀ c ∈ telemetryFormat.tail, Keeps c Sa3xAttributes.bite := by
    simp only [telemetryFormat, List.tail_cons, List.forall_mem_cons]
    refine ⟨?_, ?_, ?_, ?_, ?_, ?_, ?_, ?_, ?_, ?_, ?_, by simp⟩
    any_goals exact keeps_textUntil fun _ _ => rfl
    any_goals exact keeps_int fun _ _ => rfl
    exact keeps_char fun _ _ => rfl
  obtain ⟨b, hhead, hbite⟩ : ∃ b, (cString line).head? = some b ∧
      ∀ a, (storeAll (telemetry line) a).bite = b :=
    storeAll_char_eq (List.ne_nil_of_length_pos h) (fun _ _ => rfl) hkeeps
  cases line with
  | nil => cases hhead
  | cons c line =>
    rw [cString, List.takeWhile_cons] at hhead
    split_ifs at hhead with hc
    · cases hhead
      exact ⟨b, by simpa using hc, rfl, hbite⟩
    · cases hhead

/-- The temperature is the ninth value of the line. -/
theorem temperature_telemetry {line : List UInt8} (h : 9 ≤ (telemetry line).length) :
    ∃ n, ∀ a, (storeAll (telemetry line) a).temperature = n := by
  refine exists_storeAll_eq (telemetryFormat.take 8) (telemetryFormat.drop 9) h
    (settles_int fun _ _ => rfl) ?_
  simp only [telemetryFormat, List.drop, List.forall_mem_cons]
  exact ⟨keeps_int fun _ _ => rfl, keeps_char fun _ _ => rfl, keeps_int fun _ _ => rfl, by simp⟩

/-! ### What a call does -/

section Calls

variable {settlingTime now : ℕ} {s : Sa3x} {answer : Sa3xAnswer} (later : ℕ)

theorem parsed_eq_some_iff {line : List UInt8} : answer.parsed = some line ↔
    answer = .line line ∧ TelemetryDefined line ∧ 9 ≤ (telemetry line).length := by
  cases answer with
  | line bytes =>
    simp only [Sa3xAnswer.parsed, Sa3xAnswer.line.injEq, Option.ite_none_right_eq_some,
      Option.some.injEq]
    constructor
    · rintro ⟨hparsed, rfl⟩
      exact ⟨rfl, hparsed⟩
    · rintro ⟨rfl, hparsed⟩
      exact ⟨hparsed, rfl⟩
  | _ => simp [Sa3xAnswer.parsed]

/-- Recent attributes are reported without a question. -/
theorem parseAttributes_of_recent (answer : Sa3xAnswer)
    (h : sa3xTimediff now s.attrTime < settlingTime) :
    s.oscillatorParseAttributes settlingTime now later answer =
      some (s, sa3xReportOf (some s.attributes)) := by
  simp only [Sa3x.oscillatorParseAttributes, Sa3x.oscillatorGetAttributes, if_pos h]
  rfl

/-- A line outside the arrays. -/
theorem parseAttributes_of_not_defined (h : settlingTime ≤ sa3xTimediff now s.attrTime)
    (hdefined : ¬ answer.Defined) :
    s.oscillatorParseAttributes settlingTime now later answer = none := by
  cases answer with
  | line bytes =>
    obtain ⟨hne, hnot⟩ := not_or.mp hdefined
    simp only [Sa3x.oscillatorParseAttributes, Sa3x.oscillatorGetAttributes, if_neg h.not_gt,
      if_neg hne, if_neg hnot, Option.map_none]
  | _ => exact absurd trivial hdefined

/-- Without a line that is parsed, the time of the attributes stays what it is. -/
theorem parseAttributes_of_not_parsed (h : settlingTime ≤ sa3xTimediff now s.attrTime)
    (hdefined : answer.Defined) (hparsed : answer.parsed = none) :
    ∃ attributes, s.oscillatorParseAttributes settlingTime now later answer =
      some ({ s with attributes := attributes }, sa3xReportOf none) := by
  simp only [Sa3x.oscillatorParseAttributes, Sa3x.oscillatorGetAttributes, if_neg h.not_gt]
  cases answer with
  | line bytes =>
    by_cases hne : bytes = []
    · exact ⟨s.attributes, by simp only [if_pos hne]; rfl⟩
    · have hline := hdefined.resolve_left hne
      have hshort : (telemetry bytes).length < 9 := by
        simpa [Sa3xAnswer.parsed, hline] using hparsed
      exact ⟨_, by simp only [if_neg hne, if_pos hline, if_pos hshort]; rfl⟩
  | _ => exact ⟨s.attributes, rfl⟩

/-- A line that is parsed is reported, and in use from the time it was read. -/
theorem parseAttributes_of_parsed (h : settlingTime ≤ sa3xTimediff now s.attrTime)
    {line : List UInt8} (hparsed : answer.parsed = some line) :
    s.oscillatorParseAttributes settlingTime now later answer =
      some ({ attributes := storeAll (telemetry line) s.attributes, attrTime := later },
        sa3xReportOf (some (storeAll (telemetry line) s.attributes))) := by
  obtain ⟨rfl, hdefined, hlength⟩ := parsed_eq_some_iff.mp hparsed
  have hne : line ≠ [] := by
    rintro rfl
    simp [telemetry, telemetryFormat, cString, scan, char] at hlength
  simp only [Sa3x.oscillatorParseAttributes, Sa3x.oscillatorGetAttributes, if_neg h.not_gt,
    if_neg hne, if_pos hdefined, if_neg hlength.not_gt]
  rfl

end Calls

/-! ### Lines that do not parse -/

/-- Two drivers that report alike from a time on: their attributes are of the same time, and by now
they are stale or say the same. -/
structure ReportAlike (settlingTime clock : ℕ) (s s' : Sa3x) : Prop where
  time : s.attrTime = s'.attrTime
  past : s.attrTime ≤ clock
  fresh : clock < s.attrTime + settlingTime →
    s.attributes.bite = s'.attributes.bite ∧ s.attributes.temperature = s'.attributes.temperature

namespace ReportAlike

variable {settlingTime clock now later : ℕ} {s s' : Sa3x}

theorem mono (h : ReportAlike settlingTime clock s s') (hle : clock ≤ later) :
    ReportAlike settlingTime later s s' :=
  ⟨h.time, h.past.trans hle, fun hlater => h.fresh (hle.trans_lt hlater)⟩

/-- Drivers that report alike report the same in a call, and report alike after it. -/
theorem step (h : ReportAlike settlingTime now s s') (hlater : now ≤ later)
    (answer : Sa3xAnswer) :
    s.oscillatorParseAttributes settlingTime now later answer = none ∧
        s'.oscillatorParseAttributes settlingTime now later answer = none ∨
      ∃ d d' report,
        s.oscillatorParseAttributes settlingTime now later answer = some (d, report) ∧
        s'.oscillatorParseAttributes settlingTime now later answer = some (d', report) ∧
        ReportAlike settlingTime later d d' := by
  have hpast := h.past
  have hdiff : sa3xTimediff now s.attrTime = now - s.attrTime := sa3xTimediff_of_le hpast
  by_cases hrecent : sa3xTimediff now s.attrTime < settlingTime
  · have hrecent' : sa3xTimediff now s'.attrTime < settlingTime := h.time ▸ hrecent
    have hsame := h.fresh (by omega)
    have hreport : sa3xReportOf (some s.attributes) = sa3xReportOf (some s'.attributes) := by
      simp only [sa3xReportOf, hsame.1, hsame.2]
    refine .inr ⟨s, s', _, parseAttributes_of_recent later answer hrecent, ?_, h.mono hlater⟩
    rw [parseAttributes_of_recent later answer hrecent', hreport]
  rw [not_lt] at hrecent
  have hrecent' : settlingTime ≤ sa3xTimediff now s'.attrTime := h.time ▸ hrecent
  by_cases hdefined : answer.Defined
  · refine .inr ?_
    cases hparsed : answer.parsed with
    | none =>
      -- The attributes differ from now on, but they are stale until a line is parsed.
      have hstale : ¬ later < s.attrTime + settlingTime := by omega
      obtain ⟨a, ha⟩ := parseAttributes_of_not_parsed later hrecent hdefined hparsed
      obtain ⟨a', ha'⟩ := parseAttributes_of_not_parsed later hrecent' hdefined hparsed
      exact ⟨_, _, _, ha, ha', h.time, hpast.trans hlater, fun hfresh => absurd hfresh hstale⟩
    | some line =>
      obtain ⟨-, -, hlength⟩ := parsed_eq_some_iff.mp hparsed
      obtain ⟨b, -, -, hb⟩ := bite_telemetry (Nat.zero_lt_of_lt hlength)
      obtain ⟨n, hn⟩ := temperature_telemetry hlength
      refine ⟨_, { attributes := storeAll (telemetry line) s'.attributes, attrTime := later }, _,
        parseAttributes_of_parsed later hrecent hparsed, ?_, rfl, le_rfl, fun _ => ?_⟩
      · rw [parseAttributes_of_parsed later hrecent' hparsed]
        simp only [sa3xReportOf, hb, hn]
      · exact ⟨(hb _).trans (hb _).symm, (hn _).trans (hn _).symm⟩
  · exact .inl ⟨parseAttributes_of_not_defined later hrecent hdefined,
      parseAttributes_of_not_defined later hrecent' hdefined⟩

/-- Drivers that report alike do so in every later call. -/
theorem sa3xReports_eq (h : ReportAlike settlingTime clock s s') (calls : List Sa3xCall) :
    sa3xReports settlingTime s clock calls = sa3xReports settlingTime s' clock calls := by
  induction calls generalizing clock s s' with
  | nil => rfl
  | cons call calls ih =>
    have hnow : ReportAlike settlingTime (clock + call.waited) s s' :=
      h.mono (Nat.le_add_right _ _)
    have hlater : clock + call.waited ≤ clock + call.waited + call.took := Nat.le_add_right _ _
    rw [sa3xReports, sa3xReports]
    rcases hnow.step hlater call.answer with ⟨hnone, hnone'⟩ | ⟨d, d', report, hd, hd', halike⟩
    · simp only [hnone, hnone', ih (hnow.mono hlater)]
    · simp only [hd, hd', ih halike]

end ReportAlike

/-! ### Runs -/

section Run

variable {settlingTime : ℕ} {r : Sa3xRun} {call : Sa3xCall}

theorem sa3xStep_of_recent (h : ¬ r.Asks settlingTime call) :
    sa3xStep settlingTime r call = { r with clock := r.later call } := by
  have hparse := parseAttributes_of_recent (r.later call) call.answer (not_le.mp h)
  simp only [sa3xStep, Sa3xRun.parse, hparse, Sa3xRun.obtained, if_neg h]
  rfl

theorem sa3xStep_of_not_defined (h : r.Asks settlingTime call) (hdefined : ¬ call.answer.Defined) :
    sa3xStep settlingTime r call = { r with clock := r.later call } := by
  have hparsed : call.answer.parsed = none := by
    rw [Option.eq_none_iff_forall_not_mem]
    intro line hline
    obtain ⟨heq, hline, -⟩ := parsed_eq_some_iff.mp hline
    exact hdefined (heq ▸ .inr hline)
  simp only [sa3xStep, Sa3xRun.parse, parseAttributes_of_not_defined _ h hdefined, Sa3xRun.obtained,
    if_pos h, hparsed]
  rfl

theorem exists_sa3xStep_of_not_parsed (h : r.Asks settlingTime call)
    (hdefined : call.answer.Defined) (hparsed : call.answer.parsed = none) :
    ∃ attributes, sa3xStep settlingTime r call =
      { driver := { r.driver with attributes := attributes }
        clock := r.later call
        latest := r.latest } := by
  obtain ⟨attributes, hparse⟩ :=
    parseAttributes_of_not_parsed (r.later call) h hdefined hparsed
  refine ⟨attributes, ?_⟩
  simp only [sa3xStep, Sa3xRun.parse, hparse, Sa3xRun.obtained, if_pos h, hparsed]
  rfl

theorem sa3xStep_of_parsed (h : r.Asks settlingTime call) {line : List UInt8}
    (hparsed : call.answer.parsed = some line) :
    sa3xStep settlingTime r call =
      { driver :=
          { attributes := storeAll (telemetry line) r.driver.attributes
            attrTime := r.later call }
        clock := r.later call
        latest := some (r.later call, line) } := by
  simp only [sa3xStep, Sa3xRun.parse, parseAttributes_of_parsed _ h hparsed, Sa3xRun.obtained,
    if_pos h, hparsed]
  rfl

/-- **The invariant**: the attributes that are still recent are those of the last line that was
parsed, or those of `calloc`. -/
structure Sa3xInv (settlingTime : ℕ) (r : Sa3xRun) : Prop where
  past : r.driver.attrTime ≤ r.clock
  unparsed : r.latest = none →
    r.driver.attrTime = 0 ∧ (r.clock < settlingTime → r.driver.attributes.bite = 0)
  parsed : ∀ time line, r.latest = some (time, line) →
    r.driver.attrTime = time ∧ ∃ b, b ≠ 0 ∧ line.head? = some b ∧
      (r.clock < time + settlingTime → r.driver.attributes.bite = b)

theorem sa3xInv_start (clock : ℕ) : Sa3xInv settlingTime (sa3xRunStart clock) where
  past := Nat.zero_le _
  unparsed := fun _ => ⟨rfl, fun _ => rfl⟩
  parsed := by
    intro time line h
    cases h

namespace Sa3xInv

/-- Time passes. -/
theorem mono (h : Sa3xInv settlingTime r) {later : ℕ} (hle : r.clock ≤ later) :
    Sa3xInv settlingTime { r with clock := later } where
  past := h.past.trans hle
  unparsed := fun hlatest =>
    ⟨(h.unparsed hlatest).1, fun hlater => (h.unparsed hlatest).2 (hle.trans_lt hlater)⟩
  parsed := by
    intro time line hlatest
    obtain ⟨htime, b, hne, hhead, hbite⟩ := h.parsed time line hlatest
    exact ⟨htime, b, hne, hhead, fun hlater => hbite (hle.trans_lt hlater)⟩

theorem clock_le_later (call : Sa3xCall) : r.clock ≤ r.later call :=
  (Nat.le_add_right _ _).trans (Nat.le_add_right _ _)

/-- The attributes in use when the device is asked are stale. -/
theorem stale (h : Sa3xInv settlingTime r) (hasks : r.Asks settlingTime call) :
    r.driver.attrTime + settlingTime ≤ r.later call := by
  have hpast : r.driver.attrTime ≤ r.now call := h.past.trans (Nat.le_add_right _ _)
  have hdiff := hasks
  rw [Sa3xRun.Asks, sa3xTimediff_of_le hpast] at hdiff
  have hlater : r.now call ≤ r.later call := Nat.le_add_right _ _
  omega

theorem step (h : Sa3xInv settlingTime r) (call : Sa3xCall) :
    Sa3xInv settlingTime (sa3xStep settlingTime r call) := by
  by_cases hasks : r.Asks settlingTime call
  · by_cases hdefined : call.answer.Defined
    · cases hparsed : call.answer.parsed with
      | none =>
        have hstale := h.stale hasks
        obtain ⟨attributes, hstep⟩ := exists_sa3xStep_of_not_parsed hasks hdefined hparsed
        rw [hstep]
        refine ⟨h.past.trans (clock_le_later call), fun hlatest => ?_, fun time line hlatest => ?_⟩
        · obtain ⟨hzero, -⟩ := h.unparsed hlatest
          exact ⟨hzero, fun hlater => by dsimp only at hlater; omega⟩
        · obtain ⟨htime, b, hne, hhead, -⟩ := h.parsed time line hlatest
          exact ⟨htime, b, hne, hhead, fun hlater => by dsimp only at hlater; omega⟩
      | some line =>
        obtain ⟨-, -, hlength⟩ := parsed_eq_some_iff.mp hparsed
        obtain ⟨b, hne, hhead, hbite⟩ := bite_telemetry (Nat.zero_lt_of_lt hlength)
        rw [sa3xStep_of_parsed hasks hparsed]
        refine ⟨le_rfl, ?_, ?_⟩
        · intro hlatest
          cases hlatest
        · rintro time line' hlatest
          cases hlatest
          exact ⟨rfl, b, hne, hhead, fun _ => hbite _⟩
    · rw [sa3xStep_of_not_defined hasks hdefined]
      exact h.mono (clock_le_later call)
  · rw [sa3xStep_of_recent hasks]
    exact h.mono (clock_le_later call)

/-- The report on recent attributes is right unless they are those of `calloc`, or in lock. -/
theorem lock_iff_of_recent (h : Sa3xInv settlingTime r) (hasks : ¬ r.Asks settlingTime call) :
    (∃ driver report, r.parse settlingTime call = some (driver, report) ∧
        (report.locked = true ↔ r.InLock settlingTime call)) ↔
      ∃ time line, r.latest = some (time, line) ∧ line.head? ≠ some 0x30 := by
  have hrecent : sa3xTimediff (r.now call) r.driver.attrTime < settlingTime := not_le.mp hasks
  have hnow : r.clock < r.driver.attrTime + settlingTime := by
    have hpast := h.past
    have hclock : r.clock ≤ r.now call := Nat.le_add_right _ _
    rw [sa3xTimediff_of_le (hpast.trans hclock)] at hrecent
    omega
  have hparse : r.parse settlingTime call
      = some (r.driver, sa3xReportOf (some r.driver.attributes)) :=
    parseAttributes_of_recent _ _ hrecent
  have hlock : r.InLock settlingTime call ↔
      ∃ time line, r.latest = some (time, line) ∧ line.head? = some 0x30 := by
    simp only [Sa3xRun.InLock, sa3xStep_of_recent hasks]
    refine exists_congr fun time => exists_congr fun line => and_congr_right fun hlatest => ?_
    rw [(h.parsed time line hlatest).1] at hrecent
    simp only [hrecent, or_true, true_and]
  simp only [hparse, Option.some.injEq, Prod.mk.injEq, hlock, sa3xReportOf, beq_iff_eq,
    ↓existsAndEq, true_and]
  cases hlatest : r.latest with
  | none =>
    obtain ⟨hzero, hbite⟩ := h.unparsed hlatest
    simp [hbite (by omega)]
  | some latest =>
    obtain ⟨time, line⟩ := latest
    obtain ⟨htime, b, hne, hhead, hbite⟩ := h.parsed time line hlatest
    have hb : r.driver.attributes.bite = b := hbite (htime ▸ hnow)
    simp [hb, hne, hhead]

/-- The report on what the device answers is right unless it is a line in lock. -/
theorem lock_iff_of_asks (h : Sa3xInv settlingTime r) (hasks : r.Asks settlingTime call) :
    (∃ driver report, r.parse settlingTime call = some (driver, report) ∧
        (report.locked = true ↔ r.InLock settlingTime call)) ↔
      call.answer.Defined ∧ ∀ line, call.answer.parsed = some line → line.head? ≠ some 0x30 := by
  by_cases hdefined : call.answer.Defined
  · simp only [hdefined, true_and]
    cases hparsed : call.answer.parsed with
    | none =>
      obtain ⟨attributes, hparse⟩ :=
        parseAttributes_of_not_parsed (r.later call) hasks hdefined hparsed
      obtain ⟨attributes', hstep⟩ := exists_sa3xStep_of_not_parsed hasks hdefined hparsed
      -- The line in use is none: no line was obtained, and the last one is stale.
      have hlock : ¬ r.InLock settlingTime call := by
        rintro ⟨time, line, hlatest, hobtained | hrecent, -⟩
        · simp [Sa3xRun.obtained, hparsed] at hobtained
        · rw [hstep] at hlatest
          rw [← (h.parsed time line hlatest).1] at hrecent
          exact hasks.not_gt hrecent
      refine iff_of_true ⟨_, _, hparse, ?_⟩ (by simp)
      exact iff_of_false (by simp [sa3xReportOf]) hlock
    | some line =>
      obtain ⟨-, -, hlength⟩ := parsed_eq_some_iff.mp hparsed
      obtain ⟨b, hne, hhead, hbite⟩ := bite_telemetry (Nat.zero_lt_of_lt hlength)
      have hparse := parseAttributes_of_parsed (r.later call) hasks hparsed
      have hlock : r.InLock settlingTime call ↔ line.head? = some 0x30 := by
        simp [Sa3xRun.InLock, sa3xStep_of_parsed hasks hparsed, Sa3xRun.obtained, hasks, hparsed]
      simp only [Sa3xRun.parse, hparse, Option.some.injEq, Prod.mk.injEq, hlock, sa3xReportOf,
        beq_iff_eq, ↓existsAndEq, true_and, hbite, hne, false_iff]
      simp
  · have hparse := parseAttributes_of_not_defined (r.later call) hasks hdefined
    simp [Sa3xRun.parse, hparse, hdefined]

/-- A line that does not parse leaves a driver that reports alike. -/
theorem reportAlike_of_not_parsed (h : Sa3xInv settlingTime r) (hasks : r.Asks settlingTime call)
    (hparsed : call.answer.parsed = none) :
    ReportAlike settlingTime (r.later call) (sa3xStep settlingTime r call).driver r.driver := by
  have hpast := h.past.trans (clock_le_later call)
  by_cases hdefined : call.answer.Defined
  · obtain ⟨attributes, hstep⟩ := exists_sa3xStep_of_not_parsed hasks hdefined hparsed
    rw [hstep]
    exact ⟨rfl, hpast, fun hfresh => absurd hfresh (h.stale hasks).not_gt⟩
  · rw [sa3xStep_of_not_defined hasks hdefined]
    exact ⟨rfl, hpast, fun _ => ⟨rfl, rfl⟩⟩

/-- **The law of a call.** -/
theorem lockLaw_iff (h : Sa3xInv settlingTime r) (call : Sa3xCall) :
    LockLaw settlingTime r call ↔ LockCondition settlingTime r call := by
  constructor
  · rintro ⟨hlock, -⟩
    exact ⟨fun hasks => (h.lock_iff_of_asks hasks).mp hlock,
      fun hasks => (h.lock_iff_of_recent hasks).mp hlock⟩
  · rintro ⟨hasked, hrecent⟩
    refine ⟨?_, fun bytes hasks _ hparsed calls => ?_⟩
    · by_cases hasks : r.Asks settlingTime call
      · exact (h.lock_iff_of_asks hasks).mpr (hasked hasks)
      · exact (h.lock_iff_of_recent hasks).mpr (hrecent hasks)
    · exact (h.reportAlike_of_not_parsed hasks hparsed).sa3xReports_eq calls

end Sa3xInv

end Run

/-- **The law holds of exactly the runs** whose lines are defined and without BITE `0`, and whose
first call asks the device. -/
theorem lockLaw_eachStep_iff (settlingTime clock : ℕ) (calls : List Sa3xCall) :
    EachStep (sa3xStep settlingTime) (LockLaw settlingTime) (sa3xRunStart clock) calls ↔
      EachStep (sa3xStep settlingTime) (LockCondition settlingTime) (sa3xRunStart clock) calls :=
  eachStep_congr (sa3xInv_start clock) (fun _ call h => h.step call)
    fun _ call h => h.lockLaw_iff call

/-- A line in lock: `0,1,A,1,2,3,4,5,42,7,1,8`. -/
def lockedLine : List UInt8 :=
  [0x30, 0x2c, 0x31, 0x2c, 0x41, 0x2c, 0x31, 0x2c, 0x32, 0x2c, 0x33, 0x2c, 0x34, 0x2c, 0x35, 0x2c,
    0x34, 0x32, 0x2c, 0x37, 0x2c, 0x31, 0x2c, 0x38]

/-- **A clock in lock is reported unlocked**, whatever `SETTLING_TIME` is. -/
theorem lockLaw_fails_locked :
    ¬ ∃ settlingTime,
      EachStep (sa3xStep settlingTime) (LockLaw settlingTime) (sa3xRunStart settlingTime)
        [{ waited := 0, answer := .line lockedLine, took := 0 }] := by
  rintro ⟨settlingTime, hlaw⟩
  have hcondition := ((sa3xInv_start settlingTime).lockLaw_iff _).mp (eachStep_cons.mp hlaw).1
  have hasks : (sa3xRunStart settlingTime).Asks settlingTime
      { waited := 0, answer := .line lockedLine, took := 0 } :=
    (sa3xTimediff_of_le (Nat.zero_le settlingTime)).ge
  exact (hcondition.asked hasks).2 lockedLine (by decide +kernel) rfl

end Oscillatord
