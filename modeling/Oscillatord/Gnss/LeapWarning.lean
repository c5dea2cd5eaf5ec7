import Oscillatord.Gnss.Thread

/-!
# The leap second warning

`gnss_parse_ubx_nav_timels` decides from one UBX-NAV-TIMELS message whether a leap second is
announced for the next hours. A run here is any sequence of messages it is handed, from the
context `gnss_init` allocates, and it is observed with the messages handled so far, the newest
first.

The law, `LeapWarningLaw`, is that the published warning is the one the newest message justifies,
and that the leap seconds are those of a message that declared them valid. The parser sets the
flag for a change of `1` or `-1`, clears it outside the announcement window, and leaves it alone
for any other change inside the window. So the law holds throughout exactly as long as no such
message finds a warning (`leapWarningLaw_throughout_iff`).
-/

namespace Oscillatord

open StepRun CNumber

/-! ### The message -/

/-- What the parser reads of a UBX-NAV-TIMELS message. -/
structure NavTimels where
  currLs : ℤ
  lsChange : ℤ
  timeToLsEvent : ℤ
  currLsValid : Bool
  timeToLsEventValid : Bool
  deriving Repr, DecidableEq

/-- The fields of a message of the right size. -/
def navTimelsOf (msg : ParserMsgT) : Option NavTimels :=
  if msg.size = 24 + ubxFrameSize then
    let valid := (loadByte msg.data (ubxHeadSize + 23)).toNat
    some
      { currLs := loadI msg.data (ubxHeadSize + 9) 1
        lsChange := loadI msg.data (ubxHeadSize + 11) 1
        timeToLsEvent := loadI msg.data (ubxHeadSize + 12) 4
        currLsValid := valid.testBit 0
        timeToLsEventValid := valid.testBit 1 }
  else none

/-- The event is less than 23 hours ahead. -/
def NavTimels.Imminent (timels : NavTimels) : Prop :=
  timels.timeToLsEventValid = true ∧ 0 < timels.timeToLsEvent ∧ timels.timeToLsEvent < 82800

instance (timels : NavTimels) : Decidable timels.Imminent :=
  inferInstanceAs (Decidable (_ ∧ _))

/-- The warning a message justifies. -/
def NavTimels.warning (timels : NavTimels) : LeapNotify :=
  if timels.Imminent ∧ timels.lsChange = 1 then .addSecond
  else if timels.Imminent ∧ timels.lsChange = -1 then .delSecond
  else .noWarning

/-- A message of another size justifies none. -/
def warningOf (msg : ParserMsgT) : LeapNotify :=
  match navTimelsOf msg with
  | none => .noWarning
  | some timels => timels.warning

/-- An announced change the parser has no branch for. -/
def NavTimels.UnknownChange (timels : NavTimels) : Prop :=
  timels.lsChange ≠ -1 ∧ timels.lsChange ≠ 0 ∧ timels.lsChange ≠ 1

instance (timels : NavTimels) : Decidable timels.UnknownChange :=
  inferInstanceAs (Decidable (_ ∧ _))

/-! ### What the parser does with it -/

/-- The context after a message of the right size. -/
def GpsContextT.storeTimels (context : GpsContextT) (timels : NavTimels) : GpsContextT :=
  { context with
    leapSeconds := if timels.currLsValid then timels.currLs else 0
    lsset := timels.currLsValid
    timeToLsEvent := if timels.timeToLsEventValid then timels.timeToLsEvent else 0
    lsChange := if timels.timeToLsEventValid then timels.lsChange else 0
    leapNotify :=
      if timels.Imminent ∧ timels.UnknownChange then context.leapNotify else timels.warning }

/-- The context after a message of another size. -/
def GpsContextT.clearTimels (context : GpsContextT) : GpsContextT :=
  { context with timeToLsEvent := 0, lsChange := 0, leapNotify := .noWarning }

/-- The nested conditions of the parser, by what the message says. -/
private theorem storedNotify_eq (timels : NavTimels) (notify : LeapNotify)
    (hvalid : timels.timeToLsEventValid = true) :
    (if timels.lsChange ≠ 0 ∧ 0 < timels.timeToLsEvent ∧ timels.timeToLsEvent < 60 * 60 * 23 then
        if timels.lsChange = 1 then .addSecond
        else if timels.lsChange = -1 then .delSecond
        else notify
      else .noWarning)
      = if timels.Imminent ∧ timels.UnknownChange then notify else timels.warning := by
  simp only [NavTimels.Imminent, NavTimels.UnknownChange, NavTimels.warning, hvalid, true_and]
  by_cases hwindow : 0 < timels.timeToLsEvent ∧ timels.timeToLsEvent < 82800
  · rw [show (60 * 60 * 23 : ℤ) = 82800 by norm_num]
    simp only [hwindow, and_true, true_and]
    split_ifs <;> first | rfl | omega
  · rw [if_neg (by omega), if_neg (by tauto), if_neg (by tauto), if_neg (by tauto)]

/-- The two parts of `gnss_parse_ubx_nav_timels`. -/
theorem gnssParseUbxNavTimels_eq (session : GpsDeviceT) (msg : ParserMsgT) :
    gnssParseUbxNavTimels session msg = match navTimelsOf msg with
      | none => { session with context := session.context.clearTimels }
      | some timels => { session with context := session.context.storeTimels timels } := by
  by_cases hsize : msg.size = 24 + ubxFrameSize
  · rw [navTimelsOf, if_pos hsize, gnssParseUbxNavTimels, if_pos hsize]
    by_cases hvalid : (loadByte msg.data (ubxHeadSize + 23)).toNat.testBit 1 = true
    · have hnotify := storedNotify_eq
        { currLs := loadI msg.data (ubxHeadSize + 9) 1
          lsChange := loadI msg.data (ubxHeadSize + 11) 1
          timeToLsEvent := loadI msg.data (ubxHeadSize + 12) 4
          currLsValid := (loadByte msg.data (ubxHeadSize + 23)).toNat.testBit 0
          timeToLsEventValid := (loadByte msg.data (ubxHeadSize + 23)).toNat.testBit 1 }
        session.context.leapNotify hvalid
      simp only [hvalid] at hnotify
      simp only [GpsContextT.storeTimels, hvalid, if_true, ← hnotify]
    · have himminent : ∀ timels : NavTimels,
          timels.timeToLsEventValid = false → ¬ timels.Imminent :=
        fun timels hno h => Bool.false_ne_true (hno.symm.trans h.1)
      simp only [Bool.not_eq_true] at hvalid
      simp [GpsContextT.storeTimels, NavTimels.warning, himminent, hvalid]
  · simp only [navTimelsOf, if_neg hsize, gnssParseUbxNavTimels, GpsContextT.clearTimels]

/-! ### The law -/

/-- A session with the messages handled so far, the newest first. -/
structure ObservedTimels where
  session : GpsDeviceT
  handled : List ParserMsgT

/-- One message, observed. -/
def observedTimelsStep (o : ObservedTimels) (msg : ParserMsgT) : ObservedTimels :=
  { session := gnssParseUbxNavTimels o.session msg, handled := msg :: o.handled }

/-- Before the first message: the context is allocated with zeros. -/
def observedTimelsInit (session : GpsDeviceT) : ObservedTimels :=
  { session := { session with context := sessionZero.context }, handled := [] }

/-- The leap seconds are those of the newest message of the right size, and it declared them
valid. -/
def LeapSecondsDeclared (o : ObservedTimels) : Prop :=
  o.session.context.lsset = true → ∃ timels, o.handled.findSome? navTimelsOf = some timels ∧
    timels.currLsValid = true ∧ o.session.context.leapSeconds = timels.currLs

/-- **The law of the leap second warning.** -/
structure LeapWarningLaw (o : ObservedTimels) : Prop where
  notify : o.session.context.leapNotify = (o.handled.head?.map warningOf).getD .noWarning
  leapSeconds : LeapSecondsDeclared o

/-- The message does not announce an unknown change while a warning is up. -/
def KnownChangeWhileWarning (o : ObservedTimels) (msg : ParserMsgT) : Prop :=
  ∀ timels, navTimelsOf msg = some timels → timels.Imminent → timels.UnknownChange →
    o.session.context.leapNotify = .noWarning

/-- The published warning after a message is the one the message justifies, unless an unknown
change leaves an older one standing. -/
theorem notify_observedTimelsStep_iff (o : ObservedTimels) (msg : ParserMsgT) :
    (observedTimelsStep o msg).session.context.leapNotify = warningOf msg
      ↔ KnownChangeWhileWarning o msg := by
  simp only [observedTimelsStep, gnssParseUbxNavTimels_eq, warningOf, KnownChangeWhileWarning]
  rcases navTimelsOf msg with _ | timels
  · simp [GpsContextT.clearTimels]
  · simp only [GpsContextT.storeTimels, Option.some.injEq, forall_eq']
    by_cases himminent : timels.Imminent
    · by_cases hunknown : timels.UnknownChange
      · have hwarning : timels.warning = .noWarning := by
          rw [NavTimels.warning, if_neg fun h => hunknown.2.2 h.2, if_neg fun h => hunknown.1 h.2]
        simp [himminent, hunknown, hwarning]
      · simp [hunknown]
    · simp [himminent]

/-- A message of the right size declares its leap seconds, another one leaves them alone. -/
theorem LeapSecondsDeclared.step {o : ObservedTimels} (h : LeapSecondsDeclared o)
    (msg : ParserMsgT) : LeapSecondsDeclared (observedTimelsStep o msg) := by
  intro hset
  simp only [observedTimelsStep, gnssParseUbxNavTimels_eq] at hset ⊢
  rcases hmsg : navTimelsOf msg with _ | timels
  · rw [hmsg] at hset
    rw [List.findSome?_cons, hmsg]
    exact h hset
  · rw [hmsg] at hset
    have hvalid : timels.currLsValid = true := hset
    refine ⟨timels, by rw [List.findSome?_cons, hmsg], hvalid, ?_⟩
    simp [GpsContextT.storeTimels, hvalid]

/-- **The step of the law.** -/
theorem leapWarningLaw_step_iff {o : ObservedTimels} (h : LeapSecondsDeclared o)
    (msg : ParserMsgT) :
    LeapWarningLaw (observedTimelsStep o msg) ↔ KnownChangeWhileWarning o msg := by
  rw [← notify_observedTimelsStep_iff]
  constructor
  · intro hlaw
    exact hlaw.notify
  · intro hnotify
    exact { notify := hnotify, leapSeconds := h.step msg }

theorem leapWarningLaw_init (session : GpsDeviceT) :
    LeapWarningLaw (observedTimelsInit session) :=
  { notify := rfl, leapSeconds := fun hset => Bool.noConfusion hset }

/-- **The warning follows the receiver.** For every sequence of messages, what is published
after each of them is what that message alone justifies, with leap seconds a message declared
valid, exactly when no message announces a change by other than one second inside the window
while a warning is up. -/
theorem leapWarningLaw_throughout_iff (session : GpsDeviceT) (msgs : List ParserMsgT) :
    Throughout observedTimelsStep LeapWarningLaw (observedTimelsInit session) msgs ↔
      EachStep observedTimelsStep KnownChangeWhileWarning (observedTimelsInit session) msgs :=
  throughout_iff_eachStep (J := LeapSecondsDeclared) (leapWarningLaw_init session).leapSeconds
    (leapWarningLaw_init session) (fun _ msg h => h.step msg)
    fun _ msg h _ => leapWarningLaw_step_iff h msg

/-! ### A warning that outlives its message -/

/-- A UBX-NAV-TIMELS frame: leap seconds 18, all valid flags set, and an event an hour ahead that
changes the count by `lsChange`. -/
def timelsFrame (lsChange : UInt8) : ParserMsgT :=
  { type := .ubx
    data := [0xb5, 0x62, 0x01, 0x26, 24, 0, 0, 0, 0, 0, 0, 0, 0, 0, 2, 18, 2, lsChange,
      0x10, 0x0e, 0, 0, 0, 0, 0, 0, 0, 0, 0, 3, 0, 0] }

/-- An announced leap second, then a change by two seconds: the first warning stays up. -/
theorem leapWarningLaw_fails_unknown_change :
    ¬ Throughout observedTimelsStep LeapWarningLaw (observedTimelsInit sessionZero)
        [timelsFrame 1, timelsFrame 2] := by
  intro h
  have hnotify := h.last.notify
  exact absurd hnotify (by decide)

end Oscillatord
