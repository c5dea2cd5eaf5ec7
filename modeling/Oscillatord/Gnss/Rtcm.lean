import Oscillatord.Library.Custody
import Oscillatord.Library.Runs

/-!
# The RTCM client and its descriptor

The descriptor of the client that receives RTCM frames is in `rtcm_client_fd`. The accept thread
puts the descriptor of a new client there and closes the one it finds; `gnss_thread` reads it under
`mutex_data`, sends a frame on it after the mutex was released and, when that fails, takes it out of
the field, if it is still there, and closes it; and `rtcm_sock_cleanup` takes it out and closes it
once both threads have ended. An `RtcmEvent` is one step of one of them, or an open or a close
elsewhere in the process; a descriptor is a number, which the kernel gives to the next file that is
opened once the earlier one was closed.

A descriptor is in the custody of one party at a time, the accept thread, the field, `gnss_thread`
or the cleanup (`RtcmInv.sound`), so that every client is closed exactly once. What `gnss_thread`
does with the number in between is another matter: it may send to, and even close, a client it never
read from the field, once the number was used again. The law holds in every run in which no number
is given out while `gnss_thread` still has it (`rtcmLaw_throughout`).
-/

namespace Oscillatord

open StepRun Custody

/-! ### Descriptors -/

/-- What a descriptor stands for: an RTCM client, numbered in the order they are accepted, or any
other file of the process. -/
inductive RtcmFile
  | client (k : ℕ)
  | other
  deriving Repr, DecidableEq

/-- Where `rtcm_accept_thread_fn` is: at the test of its loop, in `accept`, before it puts the new
descriptor in the field, or before it closes the one it found there. -/
inductive AcceptPoint
  | testing
  | accepting
  | swapping (clientFd : ℕ)
  | closing (oldFd : ℕ)
  | finished
  deriving Repr, DecidableEq

/-- Where the forwarding step of `gnss_thread` is: before it reads the field, before it sends on the
descriptor it has read, before it compares it with the field, or before it closes it. `client` is
what the descriptor stood for when it was read. -/
inductive ForwardPoint
  | idle
  | sending (cfd : ℕ) (client : Option RtcmFile)
  | comparing (cfd : ℕ) (client : Option RtcmFile)
  | closing (cfd : ℕ) (client : Option RtcmFile)
  | finished
  deriving Repr, DecidableEq

/-- Where `gnss_stop` and `rtcm_sock_cleanup` are. -/
inductive CleanupPoint
  | joiningGnss
  | joiningAccept
  | taking
  | closing (cfd : ℕ)
  | done
  deriving Repr, DecidableEq

/-- One use of a descriptor by `gnss_thread`, a frame sent or a close: what it had read from the
field, and what the number stood for at that moment. -/
structure RtcmUse where
  client : Option RtcmFile
  now : Option RtcmFile
  deriving Repr, DecidableEq

/-- The process: what its descriptors stand for, the fields of the object and the threads, with the
number of clients accepted, the clients closed and the uses by `gnss_thread`. -/
structure RtcmState where
  files : ℕ → Option RtcmFile
  rtcmClientFd : Option ℕ
  rtcmAcceptRunning : Bool
  accept : AcceptPoint
  forward : ForwardPoint
  cleanup : CleanupPoint
  accepted : ℕ
  closed : List ℕ
  uses : List RtcmUse

/-- The process when `gnss_init` has created the accept thread; `files` tells which descriptors are
open. -/
def rtcmStart (files : ℕ → Bool) : RtcmState :=
  { files := fun fd => if files fd then some .other else none
    rtcmClientFd := none
    rtcmAcceptRunning := true
    accept := .testing
    forward := .idle
    cleanup := .joiningGnss
    accepted := 0
    closed := []
    uses := [] }

/-! ### Steps -/

/-- The steps of the threads. `acceptReturns` gives the new client a descriptor, `acceptFails` tells
whether the error ends the loop; `gnssEnds` is the end of `gnss_thread`, which `gnss_stop` waits
for. The last two are an open and a close elsewhere in the process. -/
inductive RtcmEvent
  | acceptTest
  | acceptReturns (fd : ℕ)
  | acceptFails (shuttingDown : Bool)
  | acceptSwap
  | acceptClose
  | forwardRead
  | forwardSend (sent : Bool)
  | forwardCompare
  | forwardClose
  | gnssEnds
  | cleanupBegin
  | cleanupJoin
  | cleanupTake
  | cleanupClose
  | otherOpens (fd : ℕ)
  | otherCloses (fd : ℕ)
  deriving Repr, DecidableEq

/-- `close`. -/
def RtcmState.close (s : RtcmState) (fd : ℕ) : RtcmState :=
  { s with
    files := Function.update s.files fd none
    closed := match s.files fd with
      | some (.client k) => k :: s.closed
      | _ => s.closed }

/-- `gnss_thread` uses a descriptor. -/
def RtcmState.use (s : RtcmState) (cfd : ℕ) (client : Option RtcmFile) : RtcmState :=
  { s with uses := { client, now := s.files cfd } :: s.uses }

/-- `rtcm_accept_thread_fn`. -/
def acceptStep (s : RtcmState) : RtcmEvent → RtcmState
  | .acceptTest =>
    if s.accept = .testing then
      { s with accept := if s.rtcmAcceptRunning then .accepting else .finished }
    else s
  | .acceptReturns fd =>
    if s.accept = .accepting ∧ s.files fd = none then
      { s with
        files := Function.update s.files fd (some (.client s.accepted))
        accept := .swapping fd
        accepted := s.accepted + 1 }
    else s
  | .acceptFails shuttingDown =>
    if s.accept = .accepting then
      { s with accept := if shuttingDown then .finished else .testing }
    else s
  | .acceptSwap =>
    match s.accept with
    | .swapping clientFd =>
      { s with
        rtcmClientFd := some clientFd
        accept := match s.rtcmClientFd with
          | some oldFd => .closing oldFd
          | none => .testing }
    | _ => s
  | .acceptClose =>
    match s.accept with
    | .closing oldFd => { s.close oldFd with accept := .testing }
    | _ => s
  | _ => s

/-- The forwarding step of `gnss_thread`. -/
def forwardStep (s : RtcmState) : RtcmEvent → RtcmState
  | .forwardRead =>
    if s.forward = .idle then
      { s with forward := match s.rtcmClientFd with
          | some cfd => .sending cfd (s.files cfd)
          | none => .idle }
    else s
  | .forwardSend sent =>
    match s.forward with
    | .sending cfd client =>
      { s.use cfd client with forward := if sent then .idle else .comparing cfd client }
    | _ => s
  | .forwardCompare =>
    match s.forward with
    | .comparing cfd client =>
      if s.rtcmClientFd = some cfd then
        { s with rtcmClientFd := none, forward := .closing cfd client }
      else { s with forward := .idle }
    | _ => s
  | .forwardClose =>
    match s.forward with
    | .closing cfd client => { (s.use cfd client).close cfd with forward := .idle }
    | _ => s
  | .gnssEnds => if s.forward = .idle then { s with forward := .finished } else s
  | _ => s

/-- `gnss_stop` from the end of `gnss_thread` on, and `rtcm_sock_cleanup`. -/
def cleanupStep (s : RtcmState) : RtcmEvent → RtcmState
  | .cleanupBegin =>
    if s.cleanup = .joiningGnss ∧ s.forward = .finished then
      { s with rtcmAcceptRunning := false, cleanup := .joiningAccept }
    else s
  | .cleanupJoin =>
    if s.cleanup = .joiningAccept ∧ s.accept = .finished then { s with cleanup := .taking } else s
  | .cleanupTake =>
    if s.cleanup = .taking then
      { s with
        rtcmClientFd := none
        cleanup := match s.rtcmClientFd with
          | some cfd => .closing cfd
          | none => .done }
    else s
  | .cleanupClose =>
    match s.cleanup with
    | .closing cfd => { s.close cfd with cleanup := .done }
    | _ => s
  | _ => s

/-- An open or a close elsewhere in the process. -/
def otherStep (s : RtcmState) : RtcmEvent → RtcmState
  | .otherOpens fd =>
    if s.files fd = none then { s with files := Function.update s.files fd (some .other) } else s
  | .otherCloses fd =>
    if s.files fd = some .other then { s with files := Function.update s.files fd none } else s
  | _ => s

/-- One step of the process. A step that a thread is not at changes nothing. -/
def rtcmStep (s : RtcmState) (e : RtcmEvent) : RtcmState :=
  match e with
  | .acceptTest | .acceptReturns _ | .acceptFails _ | .acceptSwap | .acceptClose => acceptStep s e
  | .forwardRead | .forwardSend _ | .forwardCompare | .forwardClose | .gnssEnds => forwardStep s e
  | .cleanupBegin | .cleanupJoin | .cleanupTake | .cleanupClose => cleanupStep s e
  | .otherOpens _ | .otherCloses _ => otherStep s e

/-- What the step of each thread reaches, the step of the process reaches. -/
theorem rtcmStep_rule {P : RtcmState → Prop} {s : RtcmState} {e : RtcmEvent}
    (haccept : P (acceptStep s e)) (hforward : P (forwardStep s e))
    (hcleanup : P (cleanupStep s e)) (hother : P (otherStep s e)) : P (rtcmStep s e) := by
  unfold rtcmStep
  split <;> assumption

/-! ### Custody of the client descriptors -/

/-- The parties a client descriptor may be with. -/
inductive RtcmParty
  | acceptThread
  | field
  | forward
  | cleanup
  deriving DecidableEq

/-- The descriptor the accept thread has to put in the field or to close. -/
def AcceptPoint.held : AcceptPoint → Option ℕ
  | .swapping clientFd => some clientFd
  | .closing oldFd => some oldFd
  | _ => none

/-- The descriptor `gnss_thread` has to close. -/
def ForwardPoint.held : ForwardPoint → Option ℕ
  | .closing cfd _ => some cfd
  | _ => none

/-- The descriptor the cleanup has to close. -/
def CleanupPoint.held : CleanupPoint → Option ℕ
  | .closing cfd => some cfd
  | _ => none

/-- The client a descriptor stands for. -/
def clientOf : Option RtcmFile → Option ℕ
  | some (.client k) => some k
  | _ => none

/-- The custody of the client descriptors. -/
def RtcmState.ledger (s : RtcmState) : Ledger RtcmParty ℕ where
  holds
    | .acceptThread => s.accept.held
    | .field => s.rtcmClientFd
    | .forward => s.forward.held
    | .cleanup => s.cleanup.held
  denotes fd := clientOf (s.files fd)
  issued := s.accepted
  returned := s.closed

variable {s : RtcmState} {e : RtcmEvent} {fd : ℕ} {client : Option RtcmFile}

theorem closed_close (s : RtcmState) (fd : ℕ) :
    (s.close fd).closed = (clientOf (s.files fd)).toList ++ s.closed := by
  simp only [RtcmState.close]
  rcases s.files fd with _ | ⟨k⟩ | _ <;> rfl

/-- A change of a descriptor changes what it stands for as a client. -/
theorem clientOf_update (files : ℕ → Option RtcmFile) (fd : ℕ) (file : Option RtcmFile) :
    (fun fd' => clientOf (Function.update files fd file fd'))
      = Function.update (fun fd' => clientOf (files fd')) fd (clientOf file) := by
  funext fd'
  by_cases h : fd' = fd
  · subst h
    simp
  · simp [Function.update_of_ne h]

/-- Files other than clients do not matter for the custody. -/
theorem update_clientOf_none (h : clientOf (s.files fd) = none) :
    Function.update (fun fd' => clientOf (s.files fd')) fd none
      = fun fd' => clientOf (s.files fd') := by
  rw [← h]
  exact Function.update_eq_self fd _

/-- `accept` issues a client to the accept thread. -/
theorem ledger_acceptReturns :
    RtcmState.ledger { s with
        files := Function.update s.files fd (some (.client s.accepted))
        accept := .swapping fd
        accepted := s.accepted + 1 } = s.ledger.issue .acceptThread fd := by
  refine Ledger.ext (funext fun p => ?_) (clientOf_update s.files fd _) rfl rfl
  cases p <;> rfl

/-- The accept thread exchanges its descriptor for the one in the field. -/
theorem ledger_acceptSwap (h : s.accept = .swapping fd) :
    RtcmState.ledger { s with
        rtcmClientFd := some fd
        accept := match s.rtcmClientFd with
          | some oldFd => .closing oldFd
          | none => .testing } = s.ledger.exchange .acceptThread .field := by
  refine Ledger.ext (funext fun p => ?_) rfl rfl rfl
  have hheld : s.accept.held = some fd := by
    rw [h]
    rfl
  cases p with
  | acceptThread =>
    rw [Ledger.exchange_left]
    cases hfield : s.rtcmClientFd <;> simp [RtcmState.ledger, AcceptPoint.held, hfield]
  | field =>
    rw [Ledger.exchange_right]
    exact hheld.symm
  | forward => rfl
  | cleanup => rfl

/-- `gnss_thread` takes the descriptor out of the field. -/
theorem ledger_forwardCompare (h : s.forward = .comparing fd client)
    (hfield : s.rtcmClientFd = some fd) :
    RtcmState.ledger { s with rtcmClientFd := none, forward := .closing fd client }
      = s.ledger.exchange .field .forward := by
  refine Ledger.ext (funext fun p => ?_) rfl rfl rfl
  have hheld : s.forward.held = none := by
    rw [h]
    rfl
  cases p with
  | acceptThread => rfl
  | field =>
    rw [Ledger.exchange_left]
    exact hheld.symm
  | forward =>
    rw [Ledger.exchange_right]
    exact hfield.symm
  | cleanup => rfl

/-- The cleanup takes the descriptor out of the field. -/
theorem ledger_cleanupTake (h : s.cleanup = .taking) :
    RtcmState.ledger { s with
        rtcmClientFd := none
        cleanup := match s.rtcmClientFd with
          | some cfd => .closing cfd
          | none => .done } = s.ledger.exchange .field .cleanup := by
  refine Ledger.ext (funext fun p => ?_) rfl rfl rfl
  have hheld : s.cleanup.held = none := by
    rw [h]
    rfl
  cases p with
  | acceptThread => rfl
  | field =>
    rw [Ledger.exchange_left]
    exact hheld.symm
  | forward => rfl
  | cleanup =>
    rw [Ledger.exchange_right]
    cases hfield : s.rtcmClientFd <;> simp [RtcmState.ledger, CleanupPoint.held, hfield]

/-- The accept thread closes its descriptor. -/
theorem ledger_acceptClose :
    RtcmState.ledger { s.close fd with accept := .testing }
      = s.ledger.giveBack .acceptThread fd := by
  refine Ledger.ext (funext fun p => ?_) (clientOf_update s.files fd none) rfl (closed_close s fd)
  cases p <;> rfl

/-- `gnss_thread` closes its descriptor. -/
theorem ledger_forwardClose :
    RtcmState.ledger { (s.use fd client).close fd with forward := .idle }
      = s.ledger.giveBack .forward fd := by
  refine Ledger.ext (funext fun p => ?_) (clientOf_update s.files fd none) rfl (closed_close s fd)
  cases p <;> rfl

/-- The cleanup closes its descriptor. -/
theorem ledger_cleanupClose :
    RtcmState.ledger { s.close fd with cleanup := .done } = s.ledger.giveBack .cleanup fd := by
  refine Ledger.ext (funext fun p => ?_) (clientOf_update s.files fd none) rfl (closed_close s fd)
  cases p <;> rfl

/-- A thread that goes on without a descriptor in its hands before and after changes nothing. -/
theorem ledger_of_held {s' : RtcmState} (hfiles : s'.files = s.files)
    (hfield : s'.rtcmClientFd = s.rtcmClientFd) (haccept : s'.accept.held = s.accept.held)
    (hforward : s'.forward.held = s.forward.held) (hcleanup : s'.cleanup.held = s.cleanup.held)
    (haccepted : s'.accepted = s.accepted) (hclosed : s'.closed = s.closed) :
    s'.ledger = s.ledger := by
  refine Ledger.ext (funext fun p => ?_) (funext fun fd => ?_) haccepted hclosed
  · cases p with
    | acceptThread => exact haccept
    | field => exact hfield
    | forward => exact hforward
    | cleanup => exact hcleanup
  · simp only [RtcmState.ledger, hfiles]

/-! ### The custody is sound in every interleaving -/

theorem sound_acceptStep (h : s.ledger.Sound) (e : RtcmEvent) : (acceptStep s e).ledger.Sound := by
  cases e with
  | acceptTest =>
    by_cases hpoint : s.accept = .testing
    · have hledger : (acceptStep s .acceptTest).ledger = s.ledger := by
        rw [acceptStep, if_pos hpoint]
        refine ledger_of_held rfl rfl ?_ rfl rfl rfl rfl
        rw [hpoint]
        cases s.rtcmAcceptRunning <;> rfl
      rw [hledger]
      exact h
    · rw [acceptStep, if_neg hpoint]
      exact h
  | acceptReturns fd =>
    by_cases hpoint : s.accept = .accepting ∧ s.files fd = none
    · rw [acceptStep, if_pos hpoint, ledger_acceptReturns]
      refine h.issue ?_ ?_
      · exact congrArg AcceptPoint.held hpoint.1
      · exact congrArg clientOf hpoint.2
    · rw [acceptStep, if_neg hpoint]
      exact h
  | acceptFails shuttingDown =>
    by_cases hpoint : s.accept = .accepting
    · have hledger : (acceptStep s (.acceptFails shuttingDown)).ledger = s.ledger := by
        rw [acceptStep, if_pos hpoint]
        refine ledger_of_held rfl rfl ?_ rfl rfl rfl rfl
        rw [hpoint]
        cases shuttingDown <;> rfl
      rw [hledger]
      exact h
    · rw [acceptStep, if_neg hpoint]
      exact h
  | acceptSwap =>
    simp only [acceptStep]
    split
    · rename_i clientFd hpoint
      rw [ledger_acceptSwap hpoint]
      exact h.exchange _ _
    · exact h
  | acceptClose =>
    simp only [acceptStep]
    split
    · rename_i oldFd hpoint
      rw [ledger_acceptClose]
      exact h.giveBack (congrArg AcceptPoint.held hpoint)
    · exact h
  | _ => exact h

theorem sound_forwardStep (h : s.ledger.Sound) (e : RtcmEvent) :
    (forwardStep s e).ledger.Sound := by
  cases e with
  | forwardRead =>
    by_cases hpoint : s.forward = .idle
    · have hledger : (forwardStep s .forwardRead).ledger = s.ledger := by
        rw [forwardStep, if_pos hpoint]
        refine ledger_of_held rfl rfl rfl ?_ rfl rfl rfl
        rw [hpoint]
        cases s.rtcmClientFd <;> rfl
      rw [hledger]
      exact h
    · rw [forwardStep, if_neg hpoint]
      exact h
  | forwardSend sent =>
    simp only [forwardStep]
    split
    · rename_i cfd client hpoint
      have hledger : RtcmState.ledger { s.use cfd client with
          forward := if sent then .idle else .comparing cfd client } = s.ledger := by
        refine ledger_of_held rfl rfl rfl ?_ rfl rfl rfl
        rw [hpoint]
        cases sent <;> rfl
      rw [hledger]
      exact h
    · exact h
  | forwardCompare =>
    simp only [forwardStep]
    split
    · rename_i cfd client hpoint
      split
      · rename_i hfield
        rw [ledger_forwardCompare hpoint hfield]
        exact h.exchange _ _
      · have hledger : RtcmState.ledger { s with forward := .idle } = s.ledger := by
          refine ledger_of_held rfl rfl rfl ?_ rfl rfl rfl
          rw [hpoint]
          rfl
        rw [hledger]
        exact h
    · exact h
  | forwardClose =>
    simp only [forwardStep]
    split
    · rename_i cfd client hpoint
      rw [ledger_forwardClose]
      exact h.giveBack (congrArg ForwardPoint.held hpoint)
    · exact h
  | gnssEnds =>
    by_cases hpoint : s.forward = .idle
    · have hledger : (forwardStep s .gnssEnds).ledger = s.ledger := by
        rw [forwardStep, if_pos hpoint]
        refine ledger_of_held rfl rfl rfl ?_ rfl rfl rfl
        rw [hpoint]
        rfl
      rw [hledger]
      exact h
    · rw [forwardStep, if_neg hpoint]
      exact h
  | _ => exact h

theorem sound_cleanupStep (h : s.ledger.Sound) (e : RtcmEvent) :
    (cleanupStep s e).ledger.Sound := by
  cases e with
  | cleanupBegin =>
    by_cases hpoint : s.cleanup = .joiningGnss ∧ s.forward = .finished
    · have hledger : (cleanupStep s .cleanupBegin).ledger = s.ledger := by
        rw [cleanupStep, if_pos hpoint]
        refine ledger_of_held rfl rfl rfl rfl ?_ rfl rfl
        rw [hpoint.1]
        rfl
      rw [hledger]
      exact h
    · rw [cleanupStep, if_neg hpoint]
      exact h
  | cleanupJoin =>
    by_cases hpoint : s.cleanup = .joiningAccept ∧ s.accept = .finished
    · have hledger : (cleanupStep s .cleanupJoin).ledger = s.ledger := by
        rw [cleanupStep, if_pos hpoint]
        refine ledger_of_held rfl rfl rfl rfl ?_ rfl rfl
        rw [hpoint.1]
        rfl
      rw [hledger]
      exact h
    · rw [cleanupStep, if_neg hpoint]
      exact h
  | cleanupTake =>
    by_cases hpoint : s.cleanup = .taking
    · rw [cleanupStep, if_pos hpoint, ledger_cleanupTake hpoint]
      exact h.exchange _ _
    · rw [cleanupStep, if_neg hpoint]
      exact h
  | cleanupClose =>
    simp only [cleanupStep]
    split
    · rename_i cfd hpoint
      rw [ledger_cleanupClose]
      exact h.giveBack (congrArg CleanupPoint.held hpoint)
    · exact h
  | _ => exact h

theorem sound_otherStep (h : s.ledger.Sound) (e : RtcmEvent) : (otherStep s e).ledger.Sound := by
  -- a file that is not a client comes or goes
  have hother : ∀ fd file, clientOf (s.files fd) = none → clientOf file = none →
      RtcmState.ledger { s with files := Function.update s.files fd file } = s.ledger :=
    fun fd file hfd hfile => by
      refine Ledger.ext (funext fun p => ?_) ((clientOf_update s.files fd file).trans ?_) rfl rfl
      · cases p <;> rfl
      · rw [hfile]
        exact update_clientOf_none hfd
  cases e with
  | otherOpens fd =>
    by_cases hopen : s.files fd = none
    · rw [otherStep, if_pos hopen, hother fd _ (congrArg clientOf hopen) rfl]
      exact h
    · rw [otherStep, if_neg hopen]
      exact h
  | otherCloses fd =>
    by_cases hopen : s.files fd = some .other
    · rw [otherStep, if_pos hopen, hother fd _ (congrArg clientOf hopen) rfl]
      exact h
    · rw [otherStep, if_neg hopen]
      exact h
  | _ => exact h

theorem sound_rtcmStep (h : s.ledger.Sound) (e : RtcmEvent) : (rtcmStep s e).ledger.Sound :=
  rtcmStep_rule (P := fun s => s.ledger.Sound) (sound_acceptStep h e) (sound_forwardStep h e)
    (sound_cleanupStep h e) (sound_otherStep h e)

theorem sound_rtcmStart (files : ℕ → Bool) : (rtcmStart files).ledger.Sound := by
  have hempty : (rtcmStart files).ledger = Ledger.empty := by
    refine Ledger.ext (funext fun p => ?_) (funext fun fd => ?_) rfl rfl
    · cases p <;> rfl
    · simp only [RtcmState.ledger, rtcmStart, Ledger.empty]
      split <;> rfl
  rw [hempty]
  exact Ledger.sound_empty

/-! ### The order of the threads -/

/-- `rtcm_sock_cleanup` runs after `gnss_thread` has ended, and takes the client out of the field
after the accept thread has. -/
structure RtcmStages (s : RtcmState) : Prop where
  ended : s.cleanup ≠ .joiningGnss → s.forward = .finished
  joined : s.cleanup ≠ .joiningGnss → s.cleanup ≠ .joiningAccept → s.accept = .finished
  taken : s.cleanup ≠ .joiningGnss → s.cleanup ≠ .joiningAccept → s.cleanup ≠ .taking →
    s.rtcmClientFd = none

theorem rtcmStages_rtcmStart (files : ℕ → Bool) : RtcmStages (rtcmStart files) :=
  ⟨fun h => absurd rfl h, fun h => absurd rfl h, fun h => absurd rfl h⟩

theorem acceptStep_of_finished (h : s.accept = .finished) (e : RtcmEvent) : acceptStep s e = s := by
  cases e <;> simp [acceptStep, h]

theorem forwardStep_of_finished (h : s.forward = .finished) (e : RtcmEvent) :
    forwardStep s e = s := by
  cases e <;> simp [forwardStep, h]

/-- The accept thread leaves the other threads where they are. -/
theorem frame_acceptStep (s : RtcmState) (e : RtcmEvent) :
    (acceptStep s e).cleanup = s.cleanup ∧ (acceptStep s e).forward = s.forward ∧
      (acceptStep s e).uses = s.uses := by
  cases e with
  | acceptTest =>
    rw [acceptStep]
    split <;> exact ⟨rfl, rfl, rfl⟩
  | acceptReturns fd =>
    rw [acceptStep]
    split <;> exact ⟨rfl, rfl, rfl⟩
  | acceptFails shuttingDown =>
    rw [acceptStep]
    split <;> exact ⟨rfl, rfl, rfl⟩
  | acceptSwap =>
    simp only [acceptStep]
    split <;> exact ⟨rfl, rfl, rfl⟩
  | acceptClose =>
    simp only [acceptStep]
    split <;> exact ⟨rfl, rfl, rfl⟩
  | _ => exact ⟨rfl, rfl, rfl⟩

/-- `gnss_thread` leaves the other threads where they are. -/
theorem frame_forwardStep (s : RtcmState) (e : RtcmEvent) :
    (forwardStep s e).cleanup = s.cleanup ∧ (forwardStep s e).accept = s.accept := by
  cases e with
  | forwardRead =>
    rw [forwardStep]
    split <;> exact ⟨rfl, rfl⟩
  | forwardSend sent =>
    simp only [forwardStep]
    split <;> exact ⟨rfl, rfl⟩
  | forwardCompare =>
    simp only [forwardStep]
    split
    · split <;> exact ⟨rfl, rfl⟩
    · exact ⟨rfl, rfl⟩
  | forwardClose =>
    simp only [forwardStep]
    split <;> exact ⟨rfl, rfl⟩
  | gnssEnds =>
    rw [forwardStep]
    split <;> exact ⟨rfl, rfl⟩
  | _ => exact ⟨rfl, rfl⟩

theorem RtcmStages.accept (h : RtcmStages s) (e : RtcmEvent) : RtcmStages (acceptStep s e) := by
  obtain ⟨hcleanup, hforward, -⟩ := frame_acceptStep s e
  by_cases hfinished : s.accept = .finished
  · rw [acceptStep_of_finished hfinished]
    exact h
  · have hearly : s.cleanup ≠ .joiningGnss → s.cleanup ≠ .joiningAccept → False :=
      fun hc hc' => hfinished (h.joined hc hc')
    refine ⟨?_, ?_, ?_⟩
    · rw [hcleanup, hforward]
      exact h.ended
    · rw [hcleanup]
      exact fun hc hc' => (hearly hc hc').elim
    · rw [hcleanup]
      exact fun hc hc' _ => (hearly hc hc').elim

theorem RtcmStages.forward (h : RtcmStages s) (e : RtcmEvent) : RtcmStages (forwardStep s e) := by
  obtain ⟨hcleanup, haccept⟩ := frame_forwardStep s e
  by_cases hfinished : s.forward = .finished
  · rw [forwardStep_of_finished hfinished]
    exact h
  · have hearly : s.cleanup = .joiningGnss := by
      by_contra hc
      exact hfinished (h.ended hc)
    refine ⟨?_, ?_, ?_⟩
    · rw [hcleanup]
      exact fun hc => absurd hearly hc
    · rw [hcleanup]
      exact fun hc => absurd hearly hc
    · rw [hcleanup]
      exact fun hc => absurd hearly hc

theorem RtcmStages.cleanup (h : RtcmStages s) (e : RtcmEvent) : RtcmStages (cleanupStep s e) := by
  cases e with
  | cleanupBegin =>
    by_cases hpoint : s.cleanup = .joiningGnss ∧ s.forward = .finished
    · rw [cleanupStep, if_pos hpoint]
      exact ⟨fun _ => hpoint.2, fun _ hc => absurd rfl hc, fun _ hc => absurd rfl hc⟩
    · rw [cleanupStep, if_neg hpoint]
      exact h
  | cleanupJoin =>
    by_cases hpoint : s.cleanup = .joiningAccept ∧ s.accept = .finished
    · rw [cleanupStep, if_pos hpoint]
      have hended := h.ended (by rw [hpoint.1]; exact CleanupPoint.noConfusion)
      exact ⟨fun _ => hended, fun _ _ => hpoint.2, fun _ _ hc => absurd rfl hc⟩
    · rw [cleanupStep, if_neg hpoint]
      exact h
  | cleanupTake =>
    by_cases hpoint : s.cleanup = .taking
    · rw [cleanupStep, if_pos hpoint]
      have hended := h.ended (by rw [hpoint]; exact CleanupPoint.noConfusion)
      have hjoined := h.joined (by rw [hpoint]; exact CleanupPoint.noConfusion)
        (by rw [hpoint]; exact CleanupPoint.noConfusion)
      exact ⟨fun _ => hended, fun _ _ => hjoined, fun _ _ _ => rfl⟩
    · rw [cleanupStep, if_neg hpoint]
      exact h
  | cleanupClose =>
    simp only [cleanupStep]
    split
    · rename_i cfd hpoint
      have hended := h.ended (by rw [hpoint]; exact CleanupPoint.noConfusion)
      have hjoined := h.joined (by rw [hpoint]; exact CleanupPoint.noConfusion)
        (by rw [hpoint]; exact CleanupPoint.noConfusion)
      have htaken := h.taken (by rw [hpoint]; exact CleanupPoint.noConfusion)
        (by rw [hpoint]; exact CleanupPoint.noConfusion)
        (by rw [hpoint]; exact CleanupPoint.noConfusion)
      exact ⟨fun _ => hended, fun _ _ => hjoined, fun _ _ _ => htaken⟩
    · exact h
  | _ => exact h

theorem RtcmStages.other (h : RtcmStages s) (e : RtcmEvent) : RtcmStages (otherStep s e) := by
  cases e with
  | otherOpens fd =>
    rw [otherStep]
    split
    · exact ⟨h.ended, h.joined, h.taken⟩
    · exact h
  | otherCloses fd =>
    rw [otherStep]
    split
    · exact ⟨h.ended, h.joined, h.taken⟩
    · exact h
  | _ => exact h

theorem RtcmStages.step (h : RtcmStages s) (e : RtcmEvent) : RtcmStages (rtcmStep s e) :=
  rtcmStep_rule (h.accept e) (h.forward e) (h.cleanup e) (h.other e)

/-- Once the cleanup is done, no party holds a descriptor. -/
theorem RtcmStages.holds_eq_none (h : RtcmStages s) (hdone : s.cleanup = .done) (p : RtcmParty) :
    s.ledger.holds p = none := by
  have hne : ∀ c, c ≠ CleanupPoint.done → s.cleanup ≠ c := fun c hc heq =>
    hc (heq.symm.trans hdone)
  have hc := hne .joiningGnss nofun
  have hc' := hne .joiningAccept nofun
  have hc'' := hne .taking nofun
  cases p with
  | acceptThread => exact congrArg AcceptPoint.held (h.joined hc hc')
  | field => exact h.taken hc hc' hc''
  | forward => exact congrArg ForwardPoint.held (h.ended hc)
  | cleanup => exact congrArg CleanupPoint.held hdone

/-! ### What `gnss_thread` uses -/

/-- The descriptor `gnss_thread` has read and not used for the last time. -/
def ForwardPoint.reads : ForwardPoint → Option (ℕ × Option RtcmFile)
  | .sending cfd client => some (cfd, client)
  | .comparing cfd client => some (cfd, client)
  | .closing cfd client => some (cfd, client)
  | _ => none

/-- The descriptor a step opens. -/
def RtcmEvent.opens : RtcmEvent → Option ℕ
  | .acceptReturns fd => some fd
  | .otherOpens fd => some fd
  | _ => none

/-- **The law of the client descriptors**: every accepted client is closed once at most, and once
exactly when the cleanup is done; `gnss_thread` uses no descriptor that stands for something else
than the client it has read. -/
structure RtcmLaw (s : RtcmState) : Prop where
  once : ∀ k, s.closed.count k ≤ 1
  all : s.cleanup = .done → ∀ k, k < s.accepted → s.closed.count k = 1
  uses : ∀ u ∈ s.uses, u.now = none ∨ u.now = u.client

/-- No number is given out that `gnss_thread` has read and not used for the last time. -/
def NumberNotInUse (s : RtcmState) (e : RtcmEvent) : Prop :=
  ∀ fd, e.opens = some fd → ∀ cfd client, s.forward.reads = some (cfd, client) → fd ≠ cfd

/-- What a run keeps in which no number is given out too early: a descriptor `gnss_thread` has read
stands for the client it stood for, or for nothing. -/
structure UsesOwn (s : RtcmState) : Prop where
  reading : ∀ cfd client, s.forward.reads = some (cfd, client) →
    s.files cfd = none ∨ s.files cfd = client
  uses : ∀ u ∈ s.uses, u.now = none ∨ u.now = u.client

/-- The other threads keep it when they leave the number alone or close it. -/
theorem UsesOwn.of_files {s' : RtcmState} (h : UsesOwn s) (hforward : s'.forward = s.forward)
    (huses : s'.uses = s.uses) (hfiles : ∀ cfd client, s.forward.reads = some (cfd, client) →
      s'.files cfd = none ∨ s'.files cfd = s.files cfd) : UsesOwn s' := by
  refine ⟨fun cfd client hreads => ?_, by rw [huses]; exact h.uses⟩
  rw [hforward] at hreads
  rcases hfiles cfd client hreads with hnone | hsame
  · exact .inl hnone
  · rw [hsame]
    exact h.reading cfd client hreads

theorem files_close (s : RtcmState) (fd cfd : ℕ) :
    (s.close fd).files cfd = none ∨ (s.close fd).files cfd = s.files cfd := by
  have hfiles : (s.close fd).files = Function.update s.files fd none := rfl
  rw [hfiles]
  by_cases heq : cfd = fd
  · subst heq
    exact .inl (Function.update_self cfd none s.files)
  · exact .inr (Function.update_of_ne heq none s.files)

theorem UsesOwn.accept (h : UsesOwn s) {e : RtcmEvent} (hfree : NumberNotInUse s e) :
    UsesOwn (acceptStep s e) := by
  obtain ⟨-, hforward, huses⟩ := frame_acceptStep s e
  refine h.of_files hforward huses fun cfd client hreads => ?_
  cases e with
  | acceptTest =>
    rw [acceptStep]
    split <;> exact .inr rfl
  | acceptReturns fd =>
    rw [acceptStep]
    split
    · exact .inr (Function.update_of_ne (hfree fd rfl cfd client hreads).symm _ _)
    · exact .inr rfl
  | acceptFails shuttingDown =>
    rw [acceptStep]
    split <;> exact .inr rfl
  | acceptSwap =>
    simp only [acceptStep]
    split <;> exact .inr rfl
  | acceptClose =>
    simp only [acceptStep]
    split
    · exact files_close s _ cfd
    · exact .inr rfl
  | _ => exact .inr rfl

theorem UsesOwn.cleanup (h : UsesOwn s) (e : RtcmEvent) : UsesOwn (cleanupStep s e) := by
  cases e with
  | cleanupBegin =>
    rw [cleanupStep]
    split
    · exact ⟨h.reading, h.uses⟩
    · exact h
  | cleanupJoin =>
    rw [cleanupStep]
    split
    · exact ⟨h.reading, h.uses⟩
    · exact h
  | cleanupTake =>
    rw [cleanupStep]
    split
    · exact ⟨h.reading, h.uses⟩
    · exact h
  | cleanupClose =>
    simp only [cleanupStep]
    split
    · exact h.of_files rfl rfl fun cfd _ _ => files_close s _ cfd
    · exact h
  | _ => exact h

theorem UsesOwn.other (h : UsesOwn s) {e : RtcmEvent} (hfree : NumberNotInUse s e) :
    UsesOwn (otherStep s e) := by
  cases e with
  | otherOpens fd =>
    rw [otherStep]
    split
    · refine h.of_files rfl rfl fun cfd client hreads => .inr ?_
      exact Function.update_of_ne (hfree fd rfl cfd client hreads).symm _ _
    · exact h
  | otherCloses fd =>
    rw [otherStep]
    split
    · refine h.of_files rfl rfl fun cfd _ _ => ?_
      by_cases heq : cfd = fd
      · subst heq
        exact .inl (Function.update_self cfd none s.files)
      · exact .inr (Function.update_of_ne heq none s.files)
    · exact h
  | _ => exact h

/-- `gnss_thread` uses what it has read. -/
theorem UsesOwn.forward (h : UsesOwn s) (e : RtcmEvent) : UsesOwn (forwardStep s e) := by
  -- a use of a descriptor that was read
  have huse : ∀ cfd client, s.forward.reads = some (cfd, client) →
      ∀ u ∈ (s.use cfd client).uses, u.now = none ∨ u.now = u.client :=
    fun cfd client hreads u hu => by
      rcases List.mem_cons.mp hu with rfl | hu
      · exact h.reading cfd client hreads
      · exact h.uses u hu
  cases e with
  | forwardRead =>
    rw [forwardStep]
    split
    · refine ⟨fun cfd client hreads => ?_, h.uses⟩
      dsimp only at hreads
      cases hfield : s.rtcmClientFd with
      | none =>
        rw [hfield] at hreads
        cases hreads
      | some fd =>
        rw [hfield] at hreads
        obtain ⟨rfl, rfl⟩ : fd = cfd ∧ s.files fd = client := by
          simpa [ForwardPoint.reads] using hreads
        exact .inr rfl
    · exact h
  | forwardSend sent =>
    simp only [forwardStep]
    split
    · rename_i cfd client hpoint
      have hreads : s.forward.reads = some (cfd, client) := congrArg ForwardPoint.reads hpoint
      refine ⟨fun cfd' client' hreads' => ?_, huse cfd client hreads⟩
      cases sent with
      | true => cases hreads'
      | false =>
        obtain ⟨rfl, rfl⟩ : cfd = cfd' ∧ client = client' := by
          simpa [ForwardPoint.reads] using hreads'
        exact h.reading cfd client hreads
    · exact h
  | forwardCompare =>
    simp only [forwardStep]
    split
    · rename_i cfd client hpoint
      have hreads : s.forward.reads = some (cfd, client) := congrArg ForwardPoint.reads hpoint
      split
      · refine ⟨fun cfd' client' hreads' => ?_, h.uses⟩
        obtain ⟨rfl, rfl⟩ : cfd = cfd' ∧ client = client' := by
          simpa [ForwardPoint.reads] using hreads'
        exact h.reading cfd client hreads
      · exact ⟨nofun, h.uses⟩
    · exact h
  | forwardClose =>
    simp only [forwardStep]
    split
    · rename_i cfd client hpoint
      have hreads : s.forward.reads = some (cfd, client) := congrArg ForwardPoint.reads hpoint
      exact ⟨nofun, huse cfd client hreads⟩
    · exact h
  | gnssEnds =>
    rw [forwardStep]
    split
    · exact ⟨nofun, h.uses⟩
    · exact h
  | _ => exact h

theorem usesOwn_rtcmStart (files : ℕ → Bool) : UsesOwn (rtcmStart files) := ⟨nofun, nofun⟩

/-- What every interleaving keeps in which no number is given out too early. -/
structure RtcmInv (s : RtcmState) : Prop where
  sound : s.ledger.Sound
  stages : RtcmStages s
  own : UsesOwn s

theorem RtcmInv.step (h : RtcmInv s) {e : RtcmEvent} (hfree : NumberNotInUse s e) :
    RtcmInv (rtcmStep s e) :=
  ⟨sound_rtcmStep h.sound e, h.stages.step e,
    rtcmStep_rule (h.own.accept hfree) (h.own.forward e) (h.own.cleanup e) (h.own.other hfree)⟩

theorem RtcmInv.law (h : RtcmInv s) : RtcmLaw s :=
  ⟨h.sound.count_le_one, fun hdone _ hk =>
    h.sound.count_eq_one (h.stages.holds_eq_none hdone) hk, h.own.uses⟩

/-- **Ownership of the client descriptors.** In every interleaving of the accept thread, of
`gnss_thread`, of the cleanup and of the rest of the process in which no open returns a number that
`gnss_thread` has read from the field and not used for the last time, the law holds in every state
reached, whatever descriptors were open at the start. -/
theorem rtcmLaw_throughout (files : ℕ → Bool) (es : List RtcmEvent)
    (h : EachStep rtcmStep NumberNotInUse (rtcmStart files) es) :
    Throughout rtcmStep RtcmLaw (rtcmStart files) es := by
  have hinv : Throughout rtcmStep RtcmInv (rtcmStart files) es :=
    throughout_of_eachStep
      ⟨sound_rtcmStart files, rtcmStages_rtcmStart files, usesOwn_rtcmStart files⟩
      (fun _ _ hinv hfree => hinv.step hfree) h
  exact fun pre hpre => (hinv pre hpre).law

/-- A client connects and is sent a frame. -/
def oneClient : List RtcmEvent :=
  [.acceptTest, .acceptReturns 7, .acceptSwap, .forwardRead, .forwardSend true, .gnssEnds,
    .cleanupBegin, .acceptTest, .cleanupJoin, .cleanupTake, .cleanupClose]

theorem eachStep_oneClient :
    EachStep rtcmStep NumberNotInUse (rtcmStart fun _ => false) oneClient := by
  -- the only descriptor is given out while `gnss_thread` has none
  have hidle : (rtcmStep (rtcmStart fun _ => false) .acceptTest).forward.reads = none := rfl
  simp [oneClient, NumberNotInUse, RtcmEvent.opens, hidle]

/-- The client is closed exactly once, and the frame is sent to it. -/
theorem rtcmLaw_oneClient : Throughout rtcmStep RtcmLaw (rtcmStart fun _ => false) oneClient :=
  rtcmLaw_throughout (fun _ => false) oneClient eachStep_oneClient

/-- The first client is replaced while `gnss_thread` has its descriptor, and the next one that
connects gets the same number. -/
def numberReused : List RtcmEvent :=
  [.acceptTest, .acceptReturns 7, .acceptSwap, .forwardRead, .acceptTest, .acceptReturns 8,
    .acceptSwap, .acceptClose, .acceptTest, .acceptReturns 7, .forwardSend true]

/-- The frame read for the first client is sent to the third. -/
theorem rtcmLaw_fails_number_reused :
    ¬ Throughout rtcmStep RtcmLaw (rtcmStart fun _ => false) numberReused := by
  intro h
  exact absurd (h.last).uses (by decide)

end Oscillatord
