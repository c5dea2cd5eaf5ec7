import Mathlib.Data.PNat.Notation
import Oscillatord.Library.Runs
import Oscillatord.Monitoring.Framing

/-!
# The monitoring server

`serverStep` is the loop of `monitoring_thread` over the events of `epoll_wait`, one event a step:
the table of peers, the interest list of epoll, and the descriptors of the peers that are open. An
event is given by the branch of the loop it leads to, with what the calls of that branch return
(`accept`, `recv`, `send`); an event that cannot occur, since epoll does not report it or the
kernel does not return it, changes nothing (`occurs`).

The interest list and the open descriptors stay in step and every registered peer is in one of
four conditions (`ServerInv`), so `epoll_ctl` never fails on a descriptor the loop knows. What
does end the loop before `monitoring->stop` is set is the rest: an `accept` that fails for another
reason than `EAGAIN`, a descriptor of `MAXFDS` or more, no room in epoll, and a chunk that fills a
receive buffer to its last byte (`stopLaw_throughout_iff`).
-/

namespace Oscillatord

open StepRun ObjectRep

/-! ### Events -/

/-- `MAXFDS`. -/
def maxFds : ℕ := 16 * 1024

/-- What `accept` returns on the listening socket: a new descriptor, with whether epoll has room
for one more, no connection after all, or another error (`ECONNABORTED`, `EMFILE`). -/
inductive AcceptOutcome
  | accepted (fd : ℕ) (room : Bool)
  | wouldBlock
  | failed
  deriving Repr, DecidableEq

/-- What `send` returns for a response, which is never empty: the number of bytes it took, or -1. -/
inductive SendOutcome
  | sent (count : ℕ+)
  | failed
  deriving DecidableEq

/-- The value of `ret`. -/
def SendOutcome.ret : SendOutcome → ℤ
  | .sent count => count
  | .failed => -1

/-- What happens to the thread: main sets `monitoring->stop`, the loop reads it after a batch of
events, or an event is handled. `EPOLLERR` is looked at first, `EPOLLIN` before `EPOLLOUT`; a peer
event with neither (`EPOLLHUP`) is passed over. The text of the response is part of the event. -/
inductive ServerEvent
  | setStop
  | checkStop
  | listeningError
  | accept (outcome : AcceptOutcome)
  | error (fd : ℕ)
  | hangup (fd : ℕ)
  | readable (fd : ℕ) (outcome : RecvOutcome)
  | writable (fd : ℕ) (resp : List UInt8) (outcome : SendOutcome)
  deriving DecidableEq

/-! ### The loop -/

/-- The loop is running, has been left by a `return` or by its condition, or has done what C leaves
undefined or an assertion forbids. -/
inductive LoopStatus
  | running
  | left
  | undefined
  deriving Repr, DecidableEq

/-- The state of `monitoring_thread`: `global_state`, the interest list of epoll, the descriptors
of the peers that are open, whether the listening socket is still registered, and
`monitoring->stop`. -/
structure Server where
  globalState : ℕ → PeerState
  interest : ℕ → Option FdStatus
  isOpen : ℕ → Bool
  listening : Bool
  stop : Bool
  loop : LoopStatus

/-- The thread before its first `epoll_wait`. The content of the table does not matter. -/
def serverStart (globalState : ℕ → PeerState) : Server :=
  { globalState
    interest := fun _ => none
    isOpen := fun _ => false
    listening := true
    stop := false
    loop := .running }

/-- What the loop waits for on a descriptor. -/
def Server.wants (s : Server) (fd : ℕ) : FdStatus := (s.interest fd).getD fdStatusNorw

/-- `EPOLL_CTL_DEL` and `close`. -/
def Server.closePeer (s : Server) (fd : ℕ) : Server :=
  if (s.interest fd).isSome then
    { s with
      interest := Function.update s.interest fd none
      isOpen := Function.update s.isOpen fd false }
  else { s with loop := .left }

/-- What the loop does with the status a handler returns: the peer is closed, or the interest in
it is changed by `EPOLL_CTL_MOD`. -/
def Server.update (s : Server) (fd : ℕ) (status : FdStatus) : Server :=
  if status = fdStatusNorw then s.closePeer fd
  else if (s.interest fd).isSome then
    { s with interest := Function.update s.interest fd (some status) }
  else { s with loop := .left }

/-- The new state of a peer. -/
def Server.setPeer (s : Server) (fd : ℕ) (peer : PeerState) : Server :=
  { s with globalState := Function.update s.globalState fd peer }

/-- The branch of the loop for the listening socket. -/
def Server.acceptPeer (s : Server) : AcceptOutcome → Server
  | .wouldBlock => s
  | .failed => { s with loop := .left }
  | .accepted fd room =>
    let s := { s with isOpen := Function.update s.isOpen fd true }
    if maxFds ≤ fd then { s with loop := .left }
    else
      let (peer, status) := onPeerConnected
      let s := s.setPeer fd peer
      if (s.interest fd).isSome || !room then { s with loop := .left }
      else { s with interest := Function.update s.interest fd (some status) }

variable (tok : JsonTokener)

/-- The branch of the loop for a peer that is ready for reading. Both handlers assert that the
descriptor is an index of the table. -/
def Server.readPeer (s : Server) (fd : ℕ) (outcome : RecvOutcome) : Server :=
  if maxFds ≤ fd then { s with loop := .undefined }
  else
    match onPeerReadyRecv tok (s.globalState fd) outcome with
    | none => { s with loop := .undefined }
    | some (peer, status) => (s.setPeer fd peer).update fd status

/-- The branch of the loop for a peer that is ready for writing. -/
def Server.writePeer (s : Server) (fd : ℕ) (outcome : SendOutcome) : Server :=
  if maxFds ≤ fd then { s with loop := .undefined }
  else
    match onPeerReadySend tok (s.globalState fd) outcome.ret with
    | none => { s with loop := .undefined }
    | some result => (s.setPeer fd result.peer).update fd result.status

/-- How many bytes `recv` returns. -/
def RecvOutcome.size : RecvOutcome → ℕ
  | .received bytes => bytes.length
  | .wouldBlock => 0
  | .failed => 0

/-- The event can occur. Epoll reports errors and hang-ups of every registered descriptor, and of
the others what the loop waits for; `accept` returns a descriptor that is not open, and `recv` as
many bytes as it is asked for at most. -/
def occurs (s : Server) : ServerEvent → Bool
  | .setStop => true
  | .checkStop => s.loop = .running
  | .listeningError => s.loop = .running && s.listening
  | .accept (.accepted fd _) => s.loop = .running && s.listening && !s.isOpen fd
  | .accept _ => s.loop = .running && s.listening
  | .error fd => s.loop = .running && (s.interest fd).isSome
  | .hangup fd => s.loop = .running && (s.interest fd).isSome
  | .readable fd outcome =>
    s.loop = .running && (s.wants fd).wantRead && decide (outcome.size ≤ recvSize)
  | .writable fd _ _ => s.loop = .running && (s.wants fd).wantWrite

/-- What the thread does at an event that occurs. -/
def Server.handle (s : Server) : ServerEvent → Server
  | .setStop => { s with stop := true }
  | .checkStop => if s.stop then { s with loop := .left } else s
  | .listeningError => { s with listening := false }
  | .accept outcome => s.acceptPeer outcome
  | .error fd => s.closePeer fd
  | .hangup _ => s
  | .readable fd outcome => s.readPeer tok fd outcome
  | .writable fd _ outcome => s.writePeer tok fd outcome

/-- One event of the thread. -/
def serverStep (s : Server) (e : ServerEvent) : Server :=
  if occurs s e then s.handle tok e else s

/-! ### What a registered peer may be -/

/-- The buffer of the peer holds a request that is to be handled. -/
structure HoldsRequest (tok : JsonTokener) (object : List UInt8) (peer : PeerState) : Prop where
  isFrame : tok.requests.IsFrame object
  holding : Holding object peer
  state : peer.state = .waitForMsg

/-- The four conditions of a peer the loop waits for: it has sent nothing since its last request,
it has sent part of a request, its request is to be handled, or its request was handled and the
response was not sent. -/
inductive PeerCondition (tok : JsonTokener) : PeerState → FdStatus → Prop
  | clean : PeerCondition tok onPeerConnected.1 fdStatusR
  | waiting {peer : PeerState} (h : peer.mustWait = true) : PeerCondition tok peer fdStatusR
  | holding {peer : PeerState} (object : List UInt8) (h : HoldsRequest tok object peer) :
      PeerCondition tok peer fdStatusW
  | unsent {peer : PeerState} (h : peer.recvBuf = zeros sendbufSize) :
      PeerCondition tok peer fdStatusW

/-- What becomes of a peer that is read: it is closed, or comes to one of the conditions but the
last. -/
inductive PeerRead (tok : JsonTokener) : PeerState → FdStatus → Prop
  | closed {peer : PeerState} : PeerRead tok peer fdStatusNorw
  | clean : PeerRead tok onPeerConnected.1 fdStatusR
  | waiting {peer : PeerState} (h : peer.mustWait = true) : PeerRead tok peer fdStatusR
  | holding {peer : PeerState} (object : List UInt8) (h : HoldsRequest tok object peer) :
      PeerRead tok peer fdStatusW

/-- What a status a handler returns stands for in the interest list. -/
def FdStatus.interest (status : FdStatus) : Option FdStatus :=
  if status = fdStatusNorw then none else some status

theorem PeerRead.condition {tok : JsonTokener} {peer : PeerState} {status status' : FdStatus}
    (h : PeerRead tok peer status) (heq : status.interest = some status') :
    PeerCondition tok peer status' := by
  cases h with
  | closed => cases heq
  | clean =>
    obtain rfl : fdStatusR = status' := Option.some.inj heq
    exact .clean
  | waiting hwait =>
    obtain rfl : fdStatusR = status' := Option.some.inj heq
    exact .waiting hwait
  | holding object hholds =>
    obtain rfl : fdStatusW = status' := Option.some.inj heq
    exact .holding object hholds

variable {tok} {s : Server} {e : ServerEvent} {peer : PeerState} {fd : ℕ}

/-- A peer that must wait is not read. -/
theorem onPeerReadyRecv_of_mustWait (h : peer.mustWait = true) (outcome : RecvOutcome) :
    onPeerReadyRecv tok peer outcome = some (peer, fdStatusR) := if_pos h

theorem mustWait_onPeerConnected : onPeerConnected.1.mustWait = false := rfl

/-- A clean peer is closed or comes to one of the conditions, except that a chunk may fill its
buffer. -/
theorem onPeerReadyRecv_clean {outcome : RecvOutcome} (hlen : outcome.size ≤ recvSize) :
    (onPeerReadyRecv tok onPeerConnected.1 outcome = none ∧
        ∃ chunk, outcome = .received chunk ∧ FillsBuffer tok chunk) ∨
      ∃ peer status, onPeerReadyRecv tok onPeerConnected.1 outcome = some (peer, status) ∧
        PeerRead tok peer status ∧
          ∀ chunk, outcome = .received chunk → ¬ FillsBuffer tok chunk := by
  rcases outcome with chunk | _ | _
  · rcases chunk with _ | ⟨b, chunk⟩
    · refine .inr ⟨_, _, rfl, .closed, fun chunk' heq hfills => ?_⟩
      obtain rfl : [] = chunk' := RecvOutcome.received.inj heq
      cases hfills.length
    · by_cases hstart : openingBrace ∈ b :: chunk
      · by_cases hbegins : ∃ object, tok.requests.Begins (b :: chunk) object
        · obtain ⟨object, hbegins⟩ := hbegins
          obtain ⟨peer, hrecv, hholding, hstate⟩ := onPeerReadyRecv_of_begins hbegins
          refine .inr ⟨peer, _, hrecv, .holding object ⟨hbegins.1, hholding, hstate⟩, ?_⟩
          rintro _ ⟨rfl⟩ hfills
          exact hfills.unfinished object hbegins
        · rw [not_exists] at hbegins
          rcases onPeerReadyRecv_of_unfinished hstart hlen hbegins with
            ⟨hrecv, hfills⟩ | ⟨peer, hrecv, hwait, hfills⟩
          · exact .inl ⟨hrecv, _, rfl, hfills⟩
          · refine .inr ⟨peer, _, hrecv, .waiting hwait, ?_⟩
            rintro _ ⟨rfl⟩
            exact hfills
      · refine .inr ⟨_, _, onPeerReadyRecv_of_separator (List.cons_ne_nil _ _) hstart, .clean, ?_⟩
        rintro _ ⟨rfl⟩ hfills
        exact hstart (List.mem_of_mem_head? hfills.head)
  · exact .inr ⟨_, _, rfl, .clean, fun _ h => by cases h⟩
  · exact .inr ⟨_, _, rfl, .closed, fun _ h => by cases h⟩

/-- What becomes of a peer that the loop reads from, unless a chunk fills its buffer. -/
theorem onPeerReadyRecv_cases {outcome : RecvOutcome}
    (hpeer : peer = onPeerConnected.1 ∨ peer.mustWait = true) (hlen : outcome.size ≤ recvSize) :
    onPeerReadyRecv tok peer outcome = none ∨
      ∃ peer' status, onPeerReadyRecv tok peer outcome = some (peer', status) ∧
        PeerRead tok peer' status := by
  rcases hpeer with rfl | hwait
  · rcases onPeerReadyRecv_clean hlen with ⟨hrecv, -⟩ | ⟨peer', status, hrecv, hread, -⟩
    · exact .inl hrecv
    · exact .inr ⟨peer', status, hrecv, hread⟩
  · exact .inr ⟨peer, fdStatusR, onPeerReadyRecv_of_mustWait hwait outcome, .waiting hwait⟩

/-- A peer that is written to comes to one of the conditions. -/
theorem PeerCondition.send (h : PeerCondition tok peer fdStatusW) (ret : ℤ) :
    ∃ result, onPeerReadySend tok peer ret = some result ∧ result.status ≠ fdStatusNorw ∧
      PeerCondition tok result.peer result.status := by
  generalize hw : fdStatusW = status at h
  cases h with
  | clean => cases hw
  | waiting => cases hw
  | holding object hholds =>
    refine ⟨_, onPeerReadySend_holding hholds.isFrame hholds.holding hholds.state ret, ?_⟩
    by_cases hret : ret = -1
    · simp only [if_pos hret]
      exact ⟨by decide, .unsent rfl⟩
    · simp only [if_neg hret]
      exact ⟨by decide, .clean⟩
  | unsent hbuf =>
    refine ⟨_, onPeerReadySend_empty hbuf ret, ?_, .unsent hbuf⟩
    exact Bool.noConfusion ∘ congrArg FdStatus.wantWrite

/-! ### The interest list and the descriptors -/

/-- What a running loop keeps: epoll knows the peers whose descriptors are open, these are indices
of the table, and each peer is in one of the four conditions. -/
structure ServerInv (tok : JsonTokener) (s : Server) : Prop where
  registered : ∀ fd, (s.interest fd).isSome = s.isOpen fd
  inTable : ∀ fd, (s.interest fd).isSome = true → fd < maxFds
  peer : ∀ fd status, s.interest fd = some status → PeerCondition tok (s.globalState fd) status

theorem serverInv_serverStart (globalState : ℕ → PeerState) :
    ServerInv tok (serverStart globalState) := by
  refine ⟨fun _ => rfl, fun fd h => ?_, fun fd status h => ?_⟩
  · cases h
  · cases h

/-- A server whose entry for one descriptor is changed: the peer and what the loop waits for on it,
`none` when the descriptor is closed. -/
def Server.put (s : Server) (fd : ℕ) (peer : PeerState) (interest : Option FdStatus) : Server :=
  { s with
    globalState := Function.update s.globalState fd peer
    interest := Function.update s.interest fd interest
    isOpen := Function.update s.isOpen fd interest.isSome }

/-- An entry in one of the conditions keeps the invariant. -/
theorem ServerInv.put (hinv : ServerInv tok s) {interest : Option FdStatus} (hfd : fd < maxFds)
    (hpeer : ∀ status, interest = some status → PeerCondition tok peer status) :
    ServerInv tok (s.put fd peer interest) := by
  refine ⟨fun fd' => ?_, fun fd' hsome => ?_, fun fd' status hinterest => ?_⟩
  · by_cases heq : fd' = fd
    · subst heq
      simp [Server.put]
    · simpa [Server.put, Function.update_of_ne heq] using hinv.registered fd'
  · by_cases heq : fd' = fd
    · rw [heq]
      exact hfd
    · simp only [Server.put, Function.update_of_ne heq] at hsome
      exact hinv.inTable fd' hsome
  · by_cases heq : fd' = fd
    · subst heq
      simp only [Server.put, Function.update_self] at hinterest ⊢
      exact hpeer status hinterest
    · simp only [Server.put, Function.update_of_ne heq] at hinterest ⊢
      exact hinv.peer fd' status hinterest

/-- `epoll_ctl` does not fail on a registered descriptor: it is closed. -/
theorem closePeer_of_registered (h : (s.interest fd).isSome = true) :
    s.closePeer fd = s.put fd (s.globalState fd) none := by
  rw [Server.closePeer, if_pos h, Server.put, Function.update_eq_self]
  rfl

/-- `epoll_ctl` does not fail on a registered descriptor: it is closed, or the interest in it is
changed. -/
theorem ServerInv.update_setPeer (hinv : ServerInv tok s) (h : (s.interest fd).isSome = true)
    (status : FdStatus) :
    (s.setPeer fd peer).update fd status = s.put fd peer status.interest := by
  have hregistered : ((s.setPeer fd peer).interest fd).isSome = true := h
  rw [Server.update, FdStatus.interest]
  split_ifs with hstatus
  · rw [Server.closePeer, if_pos hregistered]
    rfl
  · have hopen : Function.update s.isOpen fd true = s.isOpen := by
      rw [← h, hinv.registered fd, Function.update_eq_self]
    simp only [Server.setPeer, Server.put, Option.isSome_some, hopen]

/-- A new peer, on a descriptor that was not open. -/
theorem ServerInv.acceptPeer_accepted (hinv : ServerInv tok s) (hopen : s.isOpen fd = false)
    (hfd : fd < maxFds) :
    s.acceptPeer (.accepted fd true) = s.put fd onPeerConnected.1 (some fdStatusR) := by
  have hnone : (s.interest fd).isSome = false := (hinv.registered fd).trans hopen
  simp only [Server.acceptPeer, if_neg (not_le.mpr hfd), Server.setPeer, hnone, Bool.not_true,
    Bool.or_false, Bool.false_eq_true, if_false]
  rfl

/-- What the loop waits for is what the interest list says. -/
theorem interest_eq_some_wants (h : s.wants fd ≠ fdStatusNorw) :
    s.interest fd = some (s.wants fd) := by
  unfold Server.wants at h ⊢
  cases hinterest : s.interest fd with
  | none =>
    rw [hinterest] at h
    exact absurd rfl h
  | some status => rfl

/-- A descriptor the loop waits for is an index of the table. -/
theorem ServerInv.inTable_of_wants (hinv : ServerInv tok s) (h : s.wants fd ≠ fdStatusNorw) :
    fd < maxFds := by
  refine hinv.inTable fd ?_
  rw [interest_eq_some_wants h]
  rfl

/-- The peers the loop reads from are clean, or have sent part of a request. -/
theorem ServerInv.peer_of_wantRead (hinv : ServerInv tok s) (h : (s.wants fd).wantRead = true) :
    s.interest fd = some fdStatusR ∧
      (s.globalState fd = onPeerConnected.1 ∨ (s.globalState fd).mustWait = true) := by
  have hinterest : s.interest fd = some (s.wants fd) := interest_eq_some_wants fun hnorw => by
    rw [hnorw] at h
    cases h
  have hcond := hinv.peer fd _ hinterest
  rw [hinterest]
  generalize s.globalState fd = peer at hcond
  generalize s.wants fd = status at hcond h
  cases hcond with
  | clean => exact ⟨rfl, .inl rfl⟩
  | waiting hwait => exact ⟨rfl, .inr hwait⟩
  | holding => cases h
  | unsent => cases h

/-- The peers the loop writes to hold a request, or had theirs handled already. -/
theorem ServerInv.peer_of_wantWrite (hinv : ServerInv tok s)
    (h : (s.wants fd).wantWrite = true) :
    s.interest fd = some fdStatusW ∧ PeerCondition tok (s.globalState fd) fdStatusW := by
  have hinterest : s.interest fd = some (s.wants fd) := interest_eq_some_wants fun hnorw => by
    rw [hnorw] at h
    cases h
  have hcond := hinv.peer fd _ hinterest
  rw [hinterest]
  generalize s.globalState fd = peer at hcond
  generalize s.wants fd = status at hcond h
  cases hcond with
  | clean => cases h
  | waiting => cases h
  | holding object hholds => exact ⟨rfl, .holding object hholds⟩
  | unsent hbuf => exact ⟨rfl, .unsent hbuf⟩

/-! ### What a branch of the loop does -/

/-- The branch for reading: the chunk fills the buffer of a clean peer, or the entry of the
descriptor is changed. -/
theorem ServerInv.readPeer (hinv : ServerInv tok s) (h : (s.wants fd).wantRead = true)
    {outcome : RecvOutcome} (hlen : outcome.size ≤ recvSize) :
    (onPeerReadyRecv tok (s.globalState fd) outcome = none ∧
        s.readPeer tok fd outcome = { s with loop := .undefined } ∧
        (s.globalState fd).mustWait = false ∧
        ∃ chunk, outcome = .received chunk ∧ FillsBuffer tok chunk) ∨
      ∃ peer status, onPeerReadyRecv tok (s.globalState fd) outcome = some (peer, status) ∧
        s.readPeer tok fd outcome = s.put fd peer status.interest ∧
        PeerRead tok peer status ∧
        ((s.globalState fd).mustWait = false →
          ∀ chunk, outcome = .received chunk → ¬ FillsBuffer tok chunk) := by
  obtain ⟨hinterest, hpeer⟩ := hinv.peer_of_wantRead h
  have hregistered : (s.interest fd).isSome = true := by
    rw [hinterest]
    rfl
  unfold Server.readPeer
  rw [if_neg (not_le.mpr (hinv.inTable fd hregistered))]
  rcases hpeer with hclean | hwait
  · rw [hclean]
    rcases onPeerReadyRecv_clean hlen with ⟨hrecv, hfills⟩ | ⟨peer, status, hrecv, hcond, hfits⟩
    · rw [hrecv]
      exact .inl ⟨rfl, rfl, mustWait_onPeerConnected, hfills⟩
    · rw [hrecv]
      refine .inr ⟨peer, status, rfl, hinv.update_setPeer hregistered status, hcond, ?_⟩
      exact fun _ => hfits
  · rw [onPeerReadyRecv_of_mustWait hwait]
    refine .inr ⟨s.globalState fd, fdStatusR, rfl, ?_, .waiting hwait, fun hno => ?_⟩
    · exact hinv.update_setPeer hregistered fdStatusR
    · rw [hwait] at hno
      cases hno

/-- The branch for writing changes the entry of the descriptor. -/
theorem ServerInv.writePeer (hinv : ServerInv tok s) (h : (s.wants fd).wantWrite = true)
    (outcome : SendOutcome) :
    ∃ result, onPeerReadySend tok (s.globalState fd) outcome.ret = some result ∧
      s.writePeer tok fd outcome = s.put fd result.peer (some result.status) ∧
      PeerCondition tok result.peer result.status := by
  obtain ⟨hinterest, hcond⟩ := hinv.peer_of_wantWrite h
  have hregistered : (s.interest fd).isSome = true := by
    rw [hinterest]
    rfl
  obtain ⟨result, hsend, hstatus, hcond'⟩ := hcond.send outcome.ret
  have hinterest' : result.status.interest = some result.status := if_neg hstatus
  refine ⟨result, hsend, ?_, hcond'⟩
  unfold Server.writePeer
  rw [if_neg (not_le.mpr (hinv.inTable fd hregistered)), hsend, ← hinterest']
  exact hinv.update_setPeer hregistered result.status

/-- The descriptor of a peer event. -/
def ServerEvent.fd? : ServerEvent → Option ℕ
  | .error fd => some fd
  | .hangup fd => some fd
  | .readable fd _ => some fd
  | .writable fd _ _ => some fd
  | _ => none

/-- What a peer event makes of the entry of its descriptor, from this entry alone. -/
def peerEntry (tok : JsonTokener) (peer : PeerState) (interest : Option FdStatus) :
    ServerEvent → Option (PeerState × Option FdStatus)
  | .error _ => some (peer, none)
  | .readable _ outcome =>
    (onPeerReadyRecv tok peer outcome).map fun result => (result.1, result.2.interest)
  | .writable _ _ outcome =>
    (onPeerReadySend tok peer outcome.ret).map fun result => (result.peer, some result.status)
  | _ => some (peer, interest)

/-- A peer event occurs on a registered descriptor. -/
theorem isSome_interest_of_occurs (h : occurs s e = true) (hfd : e.fd? = some fd) :
    (s.interest fd).isSome = true := by
  have hwants : s.wants fd ≠ fdStatusNorw → (s.interest fd).isSome = true := fun hne => by
    rw [interest_eq_some_wants hne]
    rfl
  cases e with
  | error fd' =>
    obtain rfl : fd' = fd := Option.some.inj hfd
    simp only [occurs, Bool.and_eq_true] at h
    exact h.2
  | hangup fd' =>
    obtain rfl : fd' = fd := Option.some.inj hfd
    simp only [occurs, Bool.and_eq_true] at h
    exact h.2
  | readable fd' outcome =>
    obtain rfl : fd' = fd := Option.some.inj hfd
    simp only [occurs, Bool.and_eq_true] at h
    refine hwants fun hnorw => ?_
    rw [hnorw] at h
    cases h.1.2
  | writable fd' resp outcome =>
    obtain rfl : fd' = fd := Option.some.inj hfd
    simp only [occurs, Bool.and_eq_true] at h
    refine hwants fun hnorw => ?_
    rw [hnorw] at h
    cases h.2
  | _ => cases hfd

/-- **A peer event concerns one entry of the table**: the entry becomes what `peerEntry` says, or
the thread comes to an end. -/
theorem ServerInv.handle_peer (hinv : ServerInv tok s) (h : occurs s e = true)
    (hfd : e.fd? = some fd) :
    s.handle tok e = match peerEntry tok (s.globalState fd) (s.interest fd) e with
      | none => { s with loop := .undefined }
      | some entry => s.put fd entry.1 entry.2 := by
  have hregistered := isSome_interest_of_occurs h hfd
  cases e with
  | error fd' =>
    obtain rfl : fd' = fd := Option.some.inj hfd
    exact closePeer_of_registered hregistered
  | hangup fd' =>
    obtain rfl : fd' = fd := Option.some.inj hfd
    simp only [Server.handle, peerEntry, Server.put, Function.update_eq_self, hinv.registered fd']
  | readable fd' outcome =>
    obtain rfl : fd' = fd := Option.some.inj hfd
    rw [Server.handle, peerEntry, Server.readPeer,
      if_neg (not_le.mpr (hinv.inTable fd' hregistered))]
    cases onPeerReadyRecv tok (s.globalState fd') outcome with
    | none => rfl
    | some result => exact hinv.update_setPeer hregistered result.2
  | writable fd' resp outcome =>
    obtain rfl : fd' = fd := Option.some.inj hfd
    simp only [occurs, Bool.and_eq_true] at h
    obtain ⟨result, hsend, hstep, -⟩ := hinv.writePeer h.2 outcome
    rw [Server.handle, hstep, peerEntry, hsend]
    rfl
  | _ => cases hfd

/-- The events that end the loop. -/
def EndsLoop (tok : JsonTokener) (s : Server) : ServerEvent → Prop
  | .checkStop => s.stop = true
  | .accept .failed => True
  | .accept (.accepted fd room) => maxFds ≤ fd ∨ room = false
  | .readable fd (.received chunk) =>
    (s.globalState fd).mustWait = false ∧ FillsBuffer tok chunk
  | _ => False

/-- **One event of a running loop**: the loop ends exactly at the events that `EndsLoop` lists, and
keeps the invariant at all others. -/
theorem ServerInv.handle (hinv : ServerInv tok s) (hrunning : s.loop = .running)
    (h : occurs s e = true) :
    (EndsLoop tok s e ∧ (s.handle tok e).loop ≠ .running) ∨
      (¬ EndsLoop tok s e ∧ (s.handle tok e).loop = .running ∧ ServerInv tok (s.handle tok e)) := by
  cases e with
  | setStop => exact .inr ⟨id, hrunning, hinv.registered, hinv.inTable, hinv.peer⟩
  | checkStop =>
    by_cases hstop : s.stop = true
    · refine .inl ⟨hstop, ?_⟩
      simp [Server.handle, hstop]
    · refine .inr ⟨hstop, ?_⟩
      simp only [Server.handle, if_neg hstop]
      exact ⟨hrunning, hinv⟩
  | listeningError => exact .inr ⟨id, hrunning, hinv.registered, hinv.inTable, hinv.peer⟩
  | accept outcome =>
    rcases outcome with ⟨fd, room⟩ | _ | _
    · have hopen : s.isOpen fd = false := by
        simp only [occurs, Bool.and_eq_true, Bool.not_eq_true'] at h
        exact h.2
      by_cases hfd : maxFds ≤ fd
      · refine .inl ⟨.inl hfd, ?_⟩
        simp [Server.handle, Server.acceptPeer, if_pos hfd]
      · cases room with
        | false =>
          refine .inl ⟨.inr rfl, ?_⟩
          simp [Server.handle, Server.acceptPeer, if_neg hfd]
        | true =>
          refine .inr ⟨by simpa [EndsLoop] using hfd, ?_⟩
          rw [Server.handle, hinv.acceptPeer_accepted hopen (not_le.mp hfd)]
          refine ⟨hrunning, hinv.put (not_le.mp hfd) fun status heq => ?_⟩
          obtain rfl : fdStatusR = status := Option.some.inj heq
          exact .clean
    · exact .inr ⟨id, hrunning, hinv⟩
    · refine .inl ⟨trivial, ?_⟩
      simp [Server.handle, Server.acceptPeer]
  | error fd =>
    have hregistered : (s.interest fd).isSome = true := by
      simp only [occurs, Bool.and_eq_true] at h
      exact h.2
    refine .inr ⟨id, ?_⟩
    rw [Server.handle, closePeer_of_registered hregistered]
    exact ⟨hrunning, hinv.put (hinv.inTable fd hregistered) fun _ heq => by cases heq⟩
  | hangup fd => exact .inr ⟨id, hrunning, hinv⟩
  | readable fd outcome =>
    simp only [occurs, Bool.and_eq_true, decide_eq_true_eq] at h
    obtain ⟨⟨-, hread⟩, hlen⟩ := h
    have hfd := hinv.inTable_of_wants fun hnorw => by
      rw [hnorw] at hread
      cases hread
    rcases hinv.readPeer hread hlen with
      ⟨-, hstep, hwait, chunk, rfl, hfills⟩ | ⟨peer, status, -, hstep, hread', hfits⟩
    · refine .inl ⟨⟨hwait, hfills⟩, ?_⟩
      rw [Server.handle, hstep]
      exact LoopStatus.noConfusion
    · refine .inr ⟨?_, ?_⟩
      · cases outcome with
        | received chunk => exact fun hends => hfits hends.1 chunk rfl hends.2
        | wouldBlock => exact id
        | failed => exact id
      · rw [Server.handle, hstep]
        exact ⟨hrunning, hinv.put hfd fun status' heq => hread'.condition heq⟩
  | writable fd resp outcome =>
    simp only [occurs, Bool.and_eq_true] at h
    have hfd := hinv.inTable_of_wants fun hnorw => by
      rw [hnorw] at h
      cases h.2
    obtain ⟨result, -, hstep, hcond⟩ := hinv.writePeer h.2 outcome
    refine .inr ⟨id, ?_⟩
    rw [Server.handle, hstep]
    refine ⟨hrunning, hinv.put hfd fun status heq => ?_⟩
    obtain rfl : result.status = status := Option.some.inj heq
    exact hcond

/-! ### Runs of the server -/

/-- What every run keeps: the invariant, as long as the loop is running. -/
def RunningInv (tok : JsonTokener) (s : Server) : Prop := s.loop = .running → ServerInv tok s

variable (tok) in
/-- Without the loop only `monitoring->stop` changes. -/
theorem serverStep_of_not_running (h : s.loop ≠ .running) (e : ServerEvent) :
    serverStep tok s e = s ∨ serverStep tok s e = { s with stop := true } := by
  cases e with
  | setStop => exact .inr rfl
  | accept outcome => cases outcome <;> simp [serverStep, occurs, h]
  | _ => simp [serverStep, occurs, h]

theorem RunningInv.step (hinv : RunningInv tok s) (e : ServerEvent) :
    RunningInv tok (serverStep tok s e) := by
  intro hnext
  by_cases hrunning : s.loop = .running
  · by_cases hoccurs : occurs s e = true
    · rw [serverStep, if_pos hoccurs] at hnext ⊢
      rcases (hinv hrunning).handle hrunning hoccurs with ⟨-, hends⟩ | ⟨-, -, hinv'⟩
      · exact absurd hnext hends
      · exact hinv'
    · rw [serverStep, if_neg hoccurs]
      exact hinv hrunning
  · have hstep : serverStep tok s e = s ∨ serverStep tok s e = { s with stop := true } :=
      serverStep_of_not_running tok hrunning e
    rcases hstep with heq | heq
    · rw [heq] at hnext
      exact absurd hnext hrunning
    · rw [heq] at hnext
      exact absurd hnext hrunning

@[simp] theorem stop_setPeer : (s.setPeer fd peer).stop = s.stop := rfl

@[simp] theorem stop_closePeer : (s.closePeer fd).stop = s.stop := by
  unfold Server.closePeer
  split <;> rfl

@[simp] theorem stop_update {status : FdStatus} : (s.update fd status).stop = s.stop := by
  unfold Server.update
  split
  · exact stop_closePeer
  · split <;> rfl

theorem stop_readPeer {outcome : RecvOutcome} : (s.readPeer tok fd outcome).stop = s.stop := by
  unfold Server.readPeer
  split
  · rfl
  · cases onPeerReadyRecv tok (s.globalState fd) outcome with
    | none => rfl
    | some result => rw [stop_update, stop_setPeer]

theorem stop_writePeer {outcome : SendOutcome} : (s.writePeer tok fd outcome).stop = s.stop := by
  unfold Server.writePeer
  split
  · rfl
  · cases onPeerReadySend tok (s.globalState fd) outcome.ret with
    | none => rfl
    | some result => rw [stop_update, stop_setPeer]

/-- Only main sets `monitoring->stop`, and nothing clears it. -/
theorem stop_handle (he : e ≠ .setStop) : (s.handle tok e).stop = s.stop := by
  cases e with
  | setStop => exact absurd rfl he
  | checkStop =>
    simp only [Server.handle]
    split <;> rfl
  | listeningError => rfl
  | accept outcome =>
    rcases outcome with ⟨fd, room⟩ | _ | _
    · simp only [Server.handle, Server.acceptPeer]
      split_ifs <;> rfl
    · rfl
    · rfl
  | error fd => exact stop_closePeer
  | hangup fd => rfl
  | readable fd outcome => rw [Server.handle, stop_readPeer]
  | writable fd resp outcome => rw [Server.handle, stop_writePeer]

/-- **The law of the loop**: it is left only after `monitoring->stop` was set. -/
def StopLaw (s : Server) : Prop := s.loop ≠ .running → s.stop = true

/-- The event leaves the loop running, or `monitoring->stop` is set. -/
def ServesOn (tok : JsonTokener) (s : Server) (e : ServerEvent) : Prop :=
  occurs s e = true → s.stop = true ∨ ¬ EndsLoop tok s e

/-- **The step of the law.** From a state that obeys the law, a step reaches one that does exactly
when it does not end the loop, or `monitoring->stop` is set. -/
theorem stopLaw_serverStep_iff (hinv : RunningInv tok s) (hlaw : StopLaw s) (e : ServerEvent) :
    StopLaw (serverStep tok s e) ↔ ServesOn tok s e := by
  by_cases hstop : s.stop = true
  · -- nothing clears the flag
    refine iff_of_true (fun _ => ?_) fun _ => .inl hstop
    rw [serverStep]
    split
    · by_cases he : e = .setStop
      · subst he
        rfl
      · rw [stop_handle he, hstop]
    · exact hstop
  · have hrunning : s.loop = .running := by
      by_contra hleft
      exact hstop (hlaw hleft)
    by_cases hoccurs : occurs s e = true
    · rw [serverStep, if_pos hoccurs]
      rcases (hinv hrunning).handle hrunning hoccurs with ⟨hends, hloop⟩ | ⟨hserves, hloop, -⟩
      · refine iff_of_false (fun hnext => ?_) fun hcond => ?_
        · have he : e ≠ .setStop := by
            rintro rfl
            exact hends
          rw [StopLaw, stop_handle he] at hnext
          exact hstop (hnext hloop)
        · rcases hcond hoccurs with h | h
          · exact hstop h
          · exact h hends
      · exact iff_of_true (fun hleft => absurd hloop hleft) fun _ => .inr hserves
    · rw [serverStep, if_neg hoccurs]
      exact iff_of_true hlaw fun h => absurd h hoccurs

/-- **Clients cannot stop the service.** Whatever the clients do, the loop is left only after
`monitoring->stop` was set exactly when, before that, every `accept` succeeds or finds no
connection, every new descriptor is below `MAXFDS` and finds room in epoll, and no chunk fills the
receive buffer of its peer. -/
theorem stopLaw_throughout_iff (tok : JsonTokener) (globalState : ℕ → PeerState)
    (es : List ServerEvent) :
    Throughout (serverStep tok) StopLaw (serverStart globalState) es ↔
      EachStep (serverStep tok) (ServesOn tok) (serverStart globalState) es :=
  throughout_iff_eachStep (J := RunningInv tok) (fun _ => serverInv_serverStart globalState)
    (fun h => absurd rfl h) (fun _ e hinv => hinv.step e)
    fun _ e hinv hlaw => stopLaw_serverStep_iff hinv hlaw e

/-- A client that aborts its connection before it is accepted ends the service. -/
theorem stopLaw_fails_connection_aborted :
    ¬ Throughout (serverStep jsonObjects) StopLaw (serverStart fun _ => onPeerConnected.1)
        [.accept .failed] := by
  intro h
  have hleft := h.last LoopStatus.noConfusion
  cases hleft

end Oscillatord
