import Oscillatord.Daemon.Effects
import Oscillatord.Library.Runs

/-!
# The mailbox of monitoring requests

`monitoring->request` is a mailbox of one place between two threads. The monitoring thread handles
one response at a time: under the mutex `json_handle_request` leaves an action in the slot and
puts its acknowledgement in the response, which is sent afterwards. The main loop takes what the
slot holds in the iterations that reach its monitoring block, and leaves it empty. A run is any
interleaving of the two, from the slot `monitoring_init` leaves unwritten in fresh memory.

`MailboxLaw` is the conservation of requests: what has been acknowledged, and the action whose
acknowledgement is on its way, are what the main loop has taken and what the slot still holds, in
order. An iteration always keeps it. A store over an action that was not taken loses one, and an
acknowledgement that cannot be sent makes the slot hold, or the main loop take, an action nobody
was told of; the law holds throughout exactly the runs that start with no action in the slot and
do neither (`mailboxLaw_throughout_iff`).
-/

namespace Oscillatord

open StepRun

variable {D : Type}

/-! ### The two threads -/

/-- The response tells the peer that its action was requested. -/
def RequestAnswer.acknowledges : RequestAnswer → Bool
  | .actionRequested text => text ≠ "None"
  | _ => false

/-- A response on its way: the peer, its request and the answer. -/
structure Response where
  peer : ℕ
  requestType : MonitoringRequest
  answer : RequestAnswer
  deriving Repr, DecidableEq

/-- The main loop, the slot, the response the monitoring thread is about to send, and the history:
the actions acknowledged, with their peers, and the actions the main loop has taken. -/
structure MailboxState (D : Type) where
  main : MainState D
  running : Bool
  request : MonitoringRequest
  response : Option Response
  acknowledged : List (ℕ × MonitoringRequest)
  taken : List MonitoringRequest

/-- A step of either thread: the monitoring thread handles a request or sends the response, the
main loop makes an iteration. -/
inductive MailboxEvent (D : Type)
  | handle (peer : ℕ) (requestType : MonitoringRequest) (eepromRead : Bool)
  | send (delivered : Bool)
  | iteration (env : MainEnv D)

/-- One step. A request is handled when no response is on its way, and a response is sent when
one is. -/
def mailboxStep (cfg : MainConfig) (s : MailboxState D) : MailboxEvent D → MailboxState D
  | .handle peer requestType eepromRead =>
    match s.response with
    | some _ => s
    | none =>
      let (answer, request) := jsonHandleRequest eepromRead requestType s.request
      { s with request, response := some { peer, requestType, answer } }
  | .send delivered =>
    match s.response with
    | none => s
    | some response =>
      let told := delivered && response.answer.acknowledges
      { s with
        response := none
        acknowledged :=
          s.acknowledged ++ if told then [(response.peer, response.requestType)] else [] }
  | .iteration env =>
    if s.running then
      let outcome := mainIteration cfg env s.main s.request
      { s with
        main := outcome.state
        running := outcome.flow.again
        request := outcome.request
        taken := s.taken ++ outcome.effects.filterMap MainEffect.taken }
    else s

/-- The daemon before the first step: the slot holds whatever the memory held. -/
def mailboxStart (content : MonitoringRequest) (main : MainState D) : MailboxState D :=
  { main, running := true, request := content, response := none, acknowledged := [], taken := [] }

/-! ### Conservation -/

/-- The action a slot holds. -/
def pendingAction (request : MonitoringRequest) : List MonitoringRequest :=
  if request.isAction then [request] else []

/-- The action whose acknowledgement is on its way. -/
def answeredAction : Option Response → List MonitoringRequest
  | none => []
  | some response => if response.answer.acknowledges then [response.requestType] else []

/-- **Conservation of requests**: the actions acknowledged, or about to be, are those the main
loop has taken and the one the slot holds. -/
def MailboxLaw (s : MailboxState D) : Prop :=
  s.acknowledged.map Prod.snd ++ answeredAction s.response = s.taken ++ pendingAction s.request

/-- The step does not leave an action over one that was not taken, and does not fail to deliver an
acknowledgement. -/
def MailboxKept (s : MailboxState D) : MailboxEvent D → Prop
  | .handle _ requestType _ =>
    s.response = none → requestType.isAction = true → s.request.isAction = false
  | .send delivered => answeredAction s.response ≠ [] → delivered = true
  | .iteration _ => True

theorem acknowledges_jsonHandleRequest (eepromRead : Bool)
    (requestType monRequest : MonitoringRequest) :
    (jsonHandleRequest eepromRead requestType monRequest).1.acknowledges
      = requestType.isAction := by
  cases requestType <;> cases eepromRead <;> rfl

/-! ### An iteration conserves -/

theorem filterMap_taken_of_uses {cfg : MainConfig} {env : MainEnv D} {input : Option OdInput}
    {effects : List (MainEffect D)} (h : ∀ effect ∈ effects, effect.Uses cfg env input) :
    effects.filterMap MainEffect.taken = [] :=
  List.filterMap_eq_nil_iff.mpr fun effect hmem => (h effect hmem).taken

/-- The monitoring block takes the action the slot holds. -/
theorem monitoringPart_conserves (cfg : MainConfig) (env : MainEnv D) (st : MainState D)
    (request : MonitoringRequest) :
    (monitoringPart cfg env st request).2.2.filterMap MainEffect.taken
        ++ pendingAction (monitoringPart cfg env st request).2.1 = pendingAction request := by
  rw [monitoringPart]
  split_ifs with hmode
  · have hexecuted : ∀ st : MainState D,
        (executeRequest st request).2.filterMap MainEffect.taken = [] := by
      intro st
      rw [List.filterMap_eq_nil_iff]
      exact fun effect hmem => (executeRequest_effects st request effect hmem).2.2.1
    have hempty : pendingAction .none = [] := rfl
    rw [hempty, List.append_nil, List.filterMap_cons_none (taken_publish _ _ _),
      List.filterMap_cons, hexecuted, taken_takeRequest, pendingAction]
    by_cases haction : request.isAction = true
    · simp [haction]
    · simp [haction]
  · simp

/-- **An iteration conserves.** It takes the action the slot holds, or leaves it there: the blocks
before the monitoring one neither take nor leave anything. -/
theorem mainIteration_conserves (cfg : MainConfig) (env : MainEnv D) (st : MainState D)
    (request : MonitoringRequest) :
    (mainIteration cfg env st request).effects.filterMap MainEffect.taken
        ++ pendingAction (mainIteration cfg env st request).request = pendingAction request := by
  obtain ⟨body, input, huses, ⟨heffects, hrequest⟩ | ⟨st', heffects, hrequest⟩⟩ :=
    mainIteration_effects cfg env st request
  · rw [heffects, hrequest, filterMap_taken_of_uses huses, List.nil_append]
  · rw [heffects, hrequest, List.filterMap_append, filterMap_taken_of_uses huses, List.nil_append]
    exact monitoringPart_conserves cfg env st' request

/-! ### The law over a run -/

/-- The step of the law, for a request that is handled: the action it leaves in the slot is the
one its response acknowledges. -/
theorem mailboxLaw_handle_iff (cfg : MainConfig) {s : MailboxState D} (h : MailboxLaw s)
    (hidle : s.response = none) (peer : ℕ) (requestType : MonitoringRequest) (eepromRead : Bool) :
    MailboxLaw (mailboxStep cfg s (.handle peer requestType eepromRead)) ↔
      (requestType.isAction = true → s.request.isAction = false) := by
  have hslot := jsonHandleRequest_snd eepromRead requestType s.request
  have hanswer := acknowledges_jsonHandleRequest eepromRead requestType s.request
  simp only [MailboxLaw, hidle, answeredAction, List.append_nil] at h
  simp only [MailboxLaw, mailboxStep, hidle, answeredAction, hanswer, hslot]
  by_cases haction : requestType.isAction = true
  · simp only [haction, if_true, forall_const, h, pendingAction]
    by_cases hpending : s.request.isAction = true
    · -- The slot held an action already: there is one more action than places for it.
      simp only [hpending, if_true, Bool.true_eq_false, iff_false]
      intro heq
      have hlen := congrArg List.length heq
      simp at hlen
    · simp [hpending]
  · simp only [haction, if_false, Bool.false_eq_true, false_imp_iff, iff_true, List.append_nil]
    exact h

/-- The step of the law, for a response that is sent. -/
theorem mailboxLaw_send_iff (cfg : MainConfig) {s : MailboxState D} (h : MailboxLaw s)
    {response : Response} (hresponse : s.response = some response) (delivered : Bool) :
    MailboxLaw (mailboxStep cfg s (.send delivered)) ↔
      (response.answer.acknowledges = true → delivered = true) := by
  simp only [MailboxLaw, hresponse, answeredAction] at h
  simp only [MailboxLaw, mailboxStep, hresponse, answeredAction, List.append_nil,
    List.map_append]
  rw [← h]
  cases response.answer.acknowledges <;> cases delivered <;> simp

/-- **The step of the conservation law.** From a state that obeys the law, a step reaches one that
does exactly when it loses no action and no acknowledgement. -/
theorem mailboxLaw_step_iff (cfg : MainConfig) {s : MailboxState D} (h : MailboxLaw s)
    (e : MailboxEvent D) : MailboxLaw (mailboxStep cfg s e) ↔ MailboxKept s e := by
  rcases e with ⟨peer, requestType, eepromRead⟩ | delivered | env
  -- a request is read when no response is under way, a response sent when there is one
  · rcases hresponse : s.response with _ | response
    · rw [mailboxLaw_handle_iff cfg h hresponse]
      simp [MailboxKept, hresponse]
    · have hsame : mailboxStep cfg s (.handle peer requestType eepromRead) = s := by
        simp only [mailboxStep, hresponse]
      rw [hsame]
      exact iff_of_true h fun hidle => by rw [hresponse] at hidle; cases hidle
  · rcases hresponse : s.response with _ | response
    · have hsame : mailboxStep cfg s (.send delivered) = s := by
        simp only [mailboxStep, hresponse]
      rw [hsame]
      refine iff_of_true h fun hnonempty => ?_
      rw [hresponse] at hnonempty
      exact absurd rfl hnonempty
    · rw [mailboxLaw_send_iff cfg h hresponse]
      simp only [MailboxKept, hresponse, answeredAction]
      cases response.answer.acknowledges <;> simp
  · refine iff_of_true ?_ trivial
    by_cases hrunning : s.running = true
    · have hconserved := mainIteration_conserves cfg env s.main s.request
      simp only [MailboxLaw, mailboxStep, hrunning, if_true, List.append_assoc, hconserved]
      exact h
    · simp only [mailboxStep, hrunning]
      exact h

/-- **No acknowledged request is lost, duplicated or invented.** Whatever the memory held, however
the two threads interleave and whatever the calls of the main loop return: requests are conserved
throughout a run exactly when the slot held no action at the start, no action is stored over one
that was not taken, and no acknowledgement of an action fails to be sent. -/
theorem mailboxLaw_throughout_iff (cfg : MainConfig) (content : MonitoringRequest)
    (main : MainState D) (es : List (MailboxEvent D)) :
    Throughout (mailboxStep cfg) MailboxLaw (mailboxStart content main) es ↔
      content.isAction = false ∧
        EachStep (mailboxStep cfg) MailboxKept (mailboxStart content main) es := by
  have hstart : MailboxLaw (mailboxStart content main) ↔ content.isAction = false := by
    simp only [MailboxLaw, mailboxStart, answeredAction, pendingAction]
    by_cases haction : content.isAction = true <;> simp [haction]
  have hrun : MailboxLaw (mailboxStart content main) →
      (Throughout (mailboxStep cfg) MailboxLaw (mailboxStart content main) es ↔
        EachStep (mailboxStep cfg) MailboxKept (mailboxStart content main) es) := fun hlaw =>
    throughout_iff_eachStep (J := fun _ => True) trivial hlaw (fun _ _ _ => trivial)
      fun _ e _ h => mailboxLaw_step_iff cfg h e
  constructor
  · intro h
    have hlaw : MailboxLaw (mailboxStart content main) := h [] List.nil_prefix
    exact ⟨hstart.mp hlaw, (hrun hlaw).mp h⟩
  · rintro ⟨hcontent, hkept⟩
    exact (hrun (hstart.mpr hcontent)).mpr hkept

/-- The daemon disciplines its oscillator and answers peers. -/
def mainConfigMonitoring : MainConfig :=
  { discipliningMode := true, monitoringMode := true, phaseErrorSupported := true, sign := 1 }

/-- A peer asks for a start of the receiver and another for a calibration before the main loop
looks at the slot: both are told that their action was requested, and the start is lost. -/
theorem mailboxLaw_fails_second_store :
    ¬ Throughout (mailboxStep mainConfigMonitoring) MailboxLaw
      (mailboxStart .none (mainStateZero ()))
      [.handle 5 .gnssStart false, .send true, .handle 6 .calibration false, .send true] := by
  intro h
  have hlast := h.last
  simp [mailboxStart, mailboxStep, jsonHandleRequest, MailboxLaw, answeredAction, pendingAction,
    RequestAnswer.acknowledges, MonitoringRequest.isAction] at hlast

end Oscillatord
