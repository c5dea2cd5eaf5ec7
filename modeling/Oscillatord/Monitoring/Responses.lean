import Oscillatord.Monitoring.ServerRun

/-!
# Progress and complete responses

Two laws of the connections of a monitoring server, over every run.

`ProgressLaw`: an event that epoll reports again as long as it is pending is not handled in vain.
`on_peer_ready_recv` takes bytes or the descriptor is closed, and `on_peer_ready_send` finds a
request and sends a part of its response, or keeps the request, or the descriptor is closed. It
holds as long as nothing arrives on a connection whose buffer keeps part of a request, and no
`send` fails (`progressLaw_eachStep_iff`): in the first case the handler returns without calling
`recv`, in the second it has cleared the buffer and stays registered for writing.

`ResponseLaw`: before the server reads from a peer again, every request it found in the buffer of
the peer was handled once, its action was stored once, and its whole response was sent once. A
failed `send` is not followed by another read, so the law holds exactly as long as no response of
which `send` took a part is (`responseLaw_eachStep_iff`).
-/

namespace Oscillatord

open StepRun ObjectRep

variable {tok : JsonTokener} {r : ServerRun} {e : ServerEvent} {fd : ℕ} {peer : PeerState}
  {status : FdStatus} {log : PeerLog} {object resp : List UInt8}

/-! ### What the handlers add to a log -/

theorem ret_eq_neg_one_iff {outcome : SendOutcome} : outcome.ret = -1 ↔ outcome = .failed := by
  cases outcome with
  | sent count =>
    have hpos : 0 < (count : ℕ) := count.2
    refine iff_of_false (fun h => ?_) SendOutcome.noConfusion
    simp only [SendOutcome.ret] at h
    omega
  | failed => exact iff_of_true rfl rfl

/-- The text in the buffer is the request. -/
theorem HoldsRequest.cString (h : HoldsRequest tok object peer) :
    cString peer.recvBuf = some object := by
  rw [h.holding.recvBuf]
  exact cString_written_object h.isFrame.2 h.isFrame.1

theorem HoldsRequest.parse (h : HoldsRequest tok object peer) :
    (tok.jsonTokenerParse object).isSome :=
  (parse_isSome_iff_startsWithObject h.isFrame.1.2).mpr ⟨object, h.isFrame.1, List.prefix_refl _⟩

/-- A buffer that holds a request is not cleared. -/
theorem HoldsRequest.recvBuf_ne (h : HoldsRequest tok object peer) :
    peer.recvBuf ≠ zeros sendbufSize := by
  intro hzero
  have hstring := h.cString
  rw [hzero, cString_zero (Nat.succ_pos 1023)] at hstring
  obtain rfl : [] = object := Option.some.inj hstring
  cases h.isFrame.1.2

/-- The request in the buffer is handled. -/
theorem HoldsRequest.send (h : HoldsRequest tok object peer) (outcome : SendOutcome) :
    onPeerReadySend tok peer outcome.ret =
      some
        { peer :=
            if outcome = .failed then { peer with recvBuf := zeros sendbufSize }
            else onPeerConnected.1
          status := if outcome = .failed then fdStatusW else fdStatusR
          handled := some (tok.request object) } := by
  have hsend := onPeerReadySend_holding h.isFrame h.holding h.state outcome.ret
  simpa only [ret_eq_neg_one_iff] using hsend

theorem HoldsRequest.handledBy (h : HoldsRequest tok object peer) (outcome : SendOutcome) :
    handledBy tok peer outcome = some (tok.request object) := by
  rw [Oscillatord.handledBy, h.send outcome]
  rfl

/-- Without a request in the buffer nothing is handled. -/
theorem handledBy_empty (h : peer.recvBuf = zeros sendbufSize) (outcome : SendOutcome) :
    handledBy tok peer outcome = none := by
  rw [handledBy, onPeerReadySend_empty h]
  rfl

/-- The request that is found complete is the one the buffer comes to hold. -/
theorem acceptedBy_of_recv {outcome : RecvOutcome} {peer' : PeerState}
    (h : onPeerReadyRecv tok peer outcome = some (peer', status)) :
    acceptedBy tok peer outcome =
      (cString peer'.recvBuf).bind fun text =>
        if status.wantWrite then some (tok.request text) else none := by
  simp only [acceptedBy, h, Option.bind_eq_bind, Option.bind_some]

theorem acceptedBy_of_not_wantWrite {outcome : RecvOutcome} {peer' : PeerState}
    (h : onPeerReadyRecv tok peer outcome = some (peer', status))
    (hstatus : status.wantWrite = false) : acceptedBy tok peer outcome = none := by
  rw [acceptedBy_of_recv h, hstatus]
  exact Option.bind_fun_none _

/-! ### Progress -/

/-- How many bytes were delivered to the peer. -/
def PeerLog.delivered (log : PeerLog) : ℕ := (log.served.map fun a => a.outcome.count).sum

/-- **The law of progress** of an event, for the two handlers. -/
structure ProgressLaw (tok : JsonTokener) (r : ServerRun) (e : ServerEvent) : Prop where
  recv : ∀ fd bytes, e = .readable fd (.received bytes) → occurs r.server e = true →
    (r.log (r.owner fd)).received.length
        < ((serverRunStep tok r e).log (r.owner fd)).received.length ∨
      (serverRunStep tok r e).server.isOpen fd = false
  send : ∀ fd resp outcome, e = .writable fd resp outcome → occurs r.server e = true →
    (∃ text, cString (r.server.globalState fd).recvBuf = some text ∧
        (tok.jsonTokenerParse text).isSome = true) ∧
      ((r.log (r.owner fd)).delivered
          < ((serverRunStep tok r e).log (r.owner fd)).delivered ∨
        ((serverRunStep tok r e).server.globalState fd).recvBuf
          = (r.server.globalState fd).recvBuf ∨
        (serverRunStep tok r e).server.isOpen fd = false)

/-- Nothing arrives, neither bytes nor the end of the stream, on a connection whose buffer keeps
part of a request, and no `send` fails. -/
structure NoStall (r : ServerRun) (e : ServerEvent) : Prop where
  recv : ∀ fd bytes, e = .readable fd (.received bytes) → occurs r.server e = true →
    (r.server.globalState fd).mustWait = false
  send : ∀ fd resp outcome, e = .writable fd resp outcome → occurs r.server e = true →
    outcome ≠ .failed

/-- What a run without a failed `send` keeps: a peer that is registered for writing holds a
request. -/
def WritesHold (tok : JsonTokener) (peer : PeerState) (status : FdStatus) (_ : PeerLog) : Prop :=
  status.wantWrite = true → ∃ object, HoldsRequest tok object peer

/-- A peer that is read comes to hold a request when it is registered for writing. -/
theorem PeerRead.writesHold {peer' : PeerState} {status' : FdStatus}
    (h : PeerRead tok peer' status) (heq : status.interest = some status') :
    WritesHold tok peer' status' log := by
  intro hwrite
  cases h with
  | closed => cases heq
  | clean =>
    obtain rfl : fdStatusR = status' := Option.some.inj heq
    cases hwrite
  | waiting _ =>
    obtain rfl : fdStatusR = status' := Option.some.inj heq
    cases hwrite
  | holding object hholds => exact ⟨object, hholds⟩

/-- An event that does not stall the server keeps what its peers hold. -/
theorem NoStall.localInv (hstall : NoStall r e)
    (hinv : LocalInv tok (WritesHold tok) (fun _ => True) r) :
    LocalInv tok (WritesHold tok) (fun _ => True) (serverRunStep tok r e) := by
  refine hinv.step (fun h => by cases h) fun fd hfd hoccurs hrunning status hstatus => ?_
  have hholds := hinv.entry hrunning fd status hstatus
  have hserver := hinv.server hrunning
  refine ⟨fun peer' status' hentry => ?_, trivial⟩
  cases e with
  | error _ => cases hentry
  | hangup _ =>
    obtain ⟨rfl, rfl⟩ : r.server.globalState fd = peer' ∧ status = status' := by
      simpa [peerEntry] using hentry
    exact hholds
  | readable fd' outcome =>
    obtain rfl : fd' = fd := Option.some.inj hfd
    simp only [occurs, Bool.and_eq_true, decide_eq_true_eq] at hoccurs
    rcases hserver.readPeer hoccurs.1.2 hoccurs.2 with
      ⟨hrecv, -⟩ | ⟨peer'', status'', hrecv, -, hread, -⟩
    · rw [peerEntry, hrecv] at hentry
      cases hentry
    · rw [peerEntry, hrecv] at hentry
      obtain ⟨rfl, hinterest⟩ : peer'' = peer' ∧ status''.interest = some status' := by
        simpa using hentry
      exact hread.writesHold hinterest
  | writable fd' resp outcome =>
    obtain rfl : fd' = fd := Option.some.inj hfd
    have hne := hstall.send fd' resp outcome rfl hoccurs
    simp only [occurs, Bool.and_eq_true] at hoccurs
    obtain ⟨hinterest, -⟩ := hserver.peer_of_wantWrite hoccurs.2
    obtain rfl : fdStatusW = status := Option.some.inj (hinterest.symm.trans hstatus)
    obtain ⟨object, hobject⟩ := hholds rfl
    rw [peerEntry, hobject.send outcome] at hentry
    simp only [Option.map_some, Option.some.injEq, Prod.mk.injEq, if_neg hne] at hentry
    obtain ⟨-, rfl⟩ := hentry
    intro hwrite
    cases hwrite
  | _ => cases hfd

/-- The handler takes what has arrived, or the descriptor is closed, unless the peer must wait. -/
theorem progress_recv_iff {bytes : List UInt8} (hinv : RunningInv tok r.server)
    (h : occurs r.server (.readable fd (.received bytes)) = true) :
    ((r.log (r.owner fd)).received.length
        < ((serverRunStep tok r (.readable fd (.received bytes))).log
            (r.owner fd)).received.length ∨
      (serverRunStep tok r (.readable fd (.received bytes))).server.isOpen fd = false) ↔
      (r.server.globalState fd).mustWait = false := by
  have hserver := hinv (running_of_occurs h rfl)
  have hhandle := hserver.handle_peer h rfl
  have hregistered := isSome_interest_of_occurs h rfl
  rw [serverRunStep_peer h rfl]
  simp only [Function.update_self, PeerLog.record, List.length_append, RecvOutcome.bytes]
  by_cases hwait : (r.server.globalState fd).mustWait = true
  · rw [peerEntry, onPeerReadyRecv_of_mustWait hwait] at hhandle
    have hopen : (r.server.handle tok (.readable fd (.received bytes))).isOpen fd = true := by
      rw [hhandle]
      exact Function.update_self fd true r.server.isOpen
    rw [hwait, hopen]
    simp
  · rw [Bool.not_eq_true] at hwait
    rw [hwait]
    refine iff_of_true ?_ rfl
    rcases bytes with _ | ⟨b, bytes⟩
    · refine .inr ?_
      have hrecv : onPeerReadyRecv tok (r.server.globalState fd) (.received [])
          = some (r.server.globalState fd, fdStatusNorw) := by
        rw [onPeerReadyRecv, if_neg (by rw [hwait]; exact Bool.noConfusion)]
      rw [peerEntry, hrecv] at hhandle
      rw [hhandle]
      exact Function.update_self fd false r.server.isOpen
    · refine .inl ?_
      simp

/-- A peer that holds a request gets a part of the response, unless `send` fails. -/
theorem progress_send_iff {outcome : SendOutcome} (hinv : RunningInv tok r.server)
    (h : occurs r.server (.writable fd resp outcome) = true)
    (hobject : HoldsRequest tok object (r.server.globalState fd)) :
    ((∃ text, cString (r.server.globalState fd).recvBuf = some text ∧
        (tok.jsonTokenerParse text).isSome = true) ∧
      ((r.log (r.owner fd)).delivered
          < ((serverRunStep tok r (.writable fd resp outcome)).log (r.owner fd)).delivered ∨
        ((serverRunStep tok r (.writable fd resp outcome)).server.globalState fd).recvBuf
          = (r.server.globalState fd).recvBuf ∨
        (serverRunStep tok r (.writable fd resp outcome)).server.isOpen fd = false)) ↔
      outcome ≠ .failed := by
  have hserver := hinv (running_of_occurs h rfl)
  have hhandle := hserver.handle_peer h rfl
  rw [peerEntry, hobject.send outcome] at hhandle
  have hopen : (r.server.handle tok (.writable fd resp outcome)).isOpen fd = true := by
    rw [hhandle]
    exact Function.update_self fd true r.server.isOpen
  rw [serverRunStep_peer h rfl]
  simp only [Function.update_self, PeerLog.record, PeerLog.delivered, hobject.handledBy, hopen,
    Option.map_some, Option.toList_some, List.map_append, List.sum_append, List.map_cons,
    List.map_nil, List.sum_cons, List.sum_nil, Bool.true_eq_false, or_false]
  have hparse : ∃ text, cString (r.server.globalState fd).recvBuf = some text ∧
      (tok.jsonTokenerParse text).isSome = true := ⟨object, hobject.cString, hobject.parse⟩
  rw [and_iff_right hparse]
  cases outcome with
  | sent count =>
    have hpos : 0 < (count : ℕ) := count.2
    refine iff_of_true (.inl ?_) SendOutcome.noConfusion
    simp only [SendOutcome.count]
    omega
  | failed =>
    -- the buffer was cleared, and nothing was sent
    refine iff_of_false (fun hprogress => ?_) fun hne => hne rfl
    rcases hprogress with hlt | hbuf
    · simp only [SendOutcome.count] at hlt
      omega
    · rw [hhandle] at hbuf
      simp only [Option.map_some, Server.put, Function.update_self, if_true] at hbuf
      exact hobject.recvBuf_ne hbuf.symm

/-- **The step of the law of progress.** Where the peers that are registered for writing hold a
request, an event makes progress exactly when it does not stall the server. -/
theorem progressLaw_iff (hinv : LocalInv tok (WritesHold tok) (fun _ => True) r)
    (e : ServerEvent) : ProgressLaw tok r e ↔ NoStall r e := by
  have hholds : ∀ {fd resp outcome}, occurs r.server (.writable fd resp outcome) = true →
      ∃ object, HoldsRequest tok object (r.server.globalState fd) :=
    fun {fd resp outcome} h => by
      have hrunning := running_of_occurs h rfl
      have hwrite := h
      simp only [occurs, Bool.and_eq_true] at hwrite
      obtain ⟨hinterest, -⟩ := (hinv.server hrunning).peer_of_wantWrite hwrite.2
      exact hinv.entry hrunning fd fdStatusW hinterest rfl
  constructor
  · intro hlaw
    refine ⟨fun fd bytes he h => ?_, fun fd resp outcome he h => ?_⟩
    · subst he
      exact (progress_recv_iff hinv.server h).mp (hlaw.recv fd bytes rfl h)
    · subst he
      obtain ⟨object, hobject⟩ := hholds h
      exact (progress_send_iff hinv.server h hobject).mp (hlaw.send fd resp outcome rfl h)
  · intro hstall
    refine ⟨fun fd bytes he h => ?_, fun fd resp outcome he h => ?_⟩
    · subst he
      exact (progress_recv_iff hinv.server h).mpr (hstall.recv fd bytes rfl h)
    · subst he
      obtain ⟨object, hobject⟩ := hholds h
      exact (progress_send_iff hinv.server h hobject).mpr (hstall.send fd resp outcome rfl h)

/-- **Progress of the server.** Whatever the peers do, every event the server handles makes progress
exactly when nothing arrives on a connection whose buffer keeps part of a request, and no `send`
fails. -/
theorem progressLaw_eachStep_iff (tok : JsonTokener) (globalState : ℕ → PeerState)
    (es : List ServerEvent) :
    EachStep (serverRunStep tok) (ProgressLaw tok) (serverRunStart globalState) es ↔
      EachStep (serverRunStep tok) NoStall (serverRunStart globalState) es :=
  eachStep_congr_of_kept (localInv_serverRunStart trivial globalState)
    (fun _ e hinv => progressLaw_iff hinv e) fun _ _ hinv hstall => hstall.localInv hinv

/-- A client connects and sends an object cut in two. -/
def objectCut : List ServerEvent :=
  [.accept (.accepted 5 true), .readable 5 (.received [0x7B]), .readable 5 (.received [0x7D])]

/-- The second half is reported and never read. -/
theorem progressLaw_fails_object_cut :
    ¬ EachStep (serverRunStep jsonObjects) (ProgressLaw jsonObjects)
        (serverRunStart fun _ => onPeerConnected.1) objectCut := by
  intro h
  have hlaw := h (objectCut.take 2) (.readable 5 (.received [0x7D])) (List.prefix_refl _)
  have hprogress := hlaw.recv 5 [0x7D] rfl (by decide +kernel)
  revert hprogress
  decide +kernel

/-! ### Complete responses -/

/-- What every log keeps: requests are handled in the order they were found, and the action of each
one that was handled was stored. -/
def PeerLog.Kept (log : PeerLog) : Prop :=
  log.handled <+: log.accepted ∧ log.stored = log.handled.filterMap storedAction

/-- Every request was handled, and every `send` took something. -/
def PeerLog.Answered (log : PeerLog) : Prop :=
  log.accepted = log.handled ∧ ∀ a ∈ log.served, a.outcome ≠ .failed

/-- What an entry of the table and its log keep: a peer that is read has all its requests answered;
a peer that is written to has one request left, in its buffer, or its buffer was cleared. -/
structure Answers (tok : JsonTokener) (peer : PeerState) (status : FdStatus)
    (log : PeerLog) : Prop where
  kept : log.Kept
  read : status.wantRead = true → log.Answered
  write : status.wantWrite = true → peer.recvBuf = zeros sendbufSize ∨
    ∃ object, HoldsRequest tok object peer ∧ log.accepted = log.handled ++ [tok.request object] ∧
      ∀ a ∈ log.served, a.outcome ≠ .failed

theorem kept_empty : PeerLog.empty.Kept := ⟨List.prefix_refl _, rfl⟩

theorem answered_empty : PeerLog.empty.Answered := ⟨rfl, nofun⟩

theorem answers_connected : Answers tok onPeerConnected.1 fdStatusR .empty :=
  ⟨kept_empty, fun _ => answered_empty, nofun⟩

/-- Writing adds the request it handles. -/
theorem record_writable_holding (hobject : HoldsRequest tok object peer) (outcome : SendOutcome) :
    (log.record tok peer (.writable fd resp outcome)).accepted = log.accepted ∧
      (log.record tok peer (.writable fd resp outcome)).served
        = log.served ++ [⟨tok.request object, resp, outcome⟩] ∧
      (log.record tok peer (.writable fd resp outcome)).stored
        = log.stored ++ (storedAction (tok.request object)).toList := by
  refine ⟨rfl, ?_, ?_⟩
  · simp only [PeerLog.record, hobject.handledBy, Option.map_some, Option.toList_some]
  · simp only [PeerLog.record, hobject.handledBy, Option.bind_some]

/-- Writing from a cleared buffer adds nothing. -/
theorem record_writable_empty (h : peer.recvBuf = zeros sendbufSize) (outcome : SendOutcome) :
    (log.record tok peer (.writable fd resp outcome)).accepted = log.accepted ∧
      (log.record tok peer (.writable fd resp outcome)).served = log.served ∧
      (log.record tok peer (.writable fd resp outcome)).stored = log.stored := by
  refine ⟨rfl, ?_, ?_⟩
  · simp only [PeerLog.record, handledBy_empty h, Option.map_none, Option.toList_none,
      List.append_nil]
  · simp only [PeerLog.record, handledBy_empty h, Option.bind_none, Option.toList_none,
      List.append_nil]

/-- A log with the same requests and answers keeps what it kept. -/
theorem PeerLog.Kept.of_eq {log' : PeerLog} (h : log.Kept) {more : List (List UInt8 × _)}
    (haccepted : log'.accepted = log.accepted ++ more) (hserved : log'.served = log.served)
    (hstored : log'.stored = log.stored) : log'.Kept := by
  have hhandled : log'.handled = log.handled := congrArg (List.map _) hserved
  refine ⟨?_, ?_⟩
  · rw [hhandled, haccepted]
    exact h.1.trans (List.prefix_append _ _)
  · rw [hhandled, hstored]
    exact h.2

theorem PeerLog.Answered.of_eq {log' : PeerLog} (h : log.Answered)
    (haccepted : log'.accepted = log.accepted) (hserved : log'.served = log.served) :
    log'.Answered := by
  refine ⟨?_, ?_⟩
  · rw [haccepted, PeerLog.handled, hserved]
    exact h.1
  · rw [hserved]
    exact h.2

theorem wantWrite_fdStatusR : fdStatusR.wantWrite ≠ true := by decide

theorem wantRead_fdStatusW : fdStatusW.wantRead ≠ true := by decide

/-- A peer that is read pays what it owes. -/
theorem Answers.read_step {outcome : RecvOutcome} (h : Answers tok peer fdStatusR log)
    (hpeer : peer = onPeerConnected.1 ∨ peer.mustWait = true)
    (hlen : outcome.size ≤ recvSize) :
    LocalStep tok (Answers tok) PeerLog.Kept peer fdStatusR log (.readable fd outcome) := by
  have hkept : (log.record tok peer (.readable fd outcome)).Kept := h.kept.of_eq rfl rfl rfl
  have hanswered := h.read rfl
  refine ⟨fun peer' status' hentry => ?_, hkept⟩
  rcases onPeerReadyRecv_cases hpeer hlen with hrecv | ⟨peer'', status'', hrecv, hread⟩
  · rw [peerEntry, hrecv] at hentry
    cases hentry
  · rw [peerEntry, hrecv] at hentry
    obtain ⟨rfl, hinterest⟩ : peer'' = peer' ∧ status''.interest = some status' := by
      simpa using hentry
    -- without a complete request nothing is added to the log
    have hnothing : status''.wantWrite = false →
        (log.record tok peer (.readable fd outcome)).Answered := fun hwrite => by
      refine hanswered.of_eq ?_ rfl
      simp only [PeerLog.record, acceptedBy_of_not_wantWrite hrecv hwrite, Option.toList_none,
        List.append_nil]
    cases hread with
    | closed => cases hinterest
    | clean =>
      obtain rfl : fdStatusR = status' := Option.some.inj hinterest
      exact ⟨hkept, fun _ => hnothing rfl, fun h => absurd h wantWrite_fdStatusR⟩
    | waiting _ =>
      obtain rfl : fdStatusR = status' := Option.some.inj hinterest
      exact ⟨hkept, fun _ => hnothing rfl, fun h => absurd h wantWrite_fdStatusR⟩
    | holding object hobject =>
      obtain rfl : fdStatusW = status' := Option.some.inj hinterest
      refine ⟨hkept, fun h => absurd h wantRead_fdStatusW,
        fun _ => .inr ⟨object, hobject, ?_, hanswered.2⟩⟩
      have haccepted : acceptedBy tok peer outcome = some (tok.request object) := by
        rw [acceptedBy_of_recv hrecv, hobject.cString]
        rfl
      simp only [PeerLog.record, haccepted, Option.toList_some, PeerLog.handled, hanswered.1]

/-- A peer that is written to pays what it owes. -/
theorem Answers.write_step {outcome : SendOutcome} (h : Answers tok peer fdStatusW log) :
    LocalStep tok (Answers tok) PeerLog.Kept peer fdStatusW log (.writable fd resp outcome) := by
  rcases h.write rfl with hempty | ⟨object, hobject, haccepted, hsent⟩
  · obtain ⟨haccepted, hserved, hstored⟩ :
        (log.record tok peer (.writable fd resp outcome)).accepted = log.accepted ++ [] ∧
          (log.record tok peer (.writable fd resp outcome)).served = log.served ∧
          (log.record tok peer (.writable fd resp outcome)).stored = log.stored := by
      rw [List.append_nil]
      exact record_writable_empty hempty outcome
    have hkept := h.kept.of_eq haccepted hserved hstored
    refine ⟨fun peer' status' hentry => ?_, hkept⟩
    rw [peerEntry, onPeerReadySend_empty hempty] at hentry
    obtain ⟨rfl, rfl⟩ : peer = peer' ∧ fdStatusW = status' := by simpa using hentry
    exact ⟨hkept, fun h => absurd h wantRead_fdStatusW, fun _ => .inl hempty⟩
  · obtain ⟨haccepted', hserved, hstored⟩ :
        (log.record tok peer (.writable fd resp outcome)).accepted = log.accepted ∧
          (log.record tok peer (.writable fd resp outcome)).served
            = log.served ++ [⟨tok.request object, resp, outcome⟩] ∧
          (log.record tok peer (.writable fd resp outcome)).stored
            = log.stored ++ (storedAction (tok.request object)).toList :=
      record_writable_holding hobject outcome
    have hhandled : (log.record tok peer (.writable fd resp outcome)).handled
        = log.handled ++ [tok.request object] := by
      rw [PeerLog.handled, hserved, List.map_append]
      rfl
    have hkept : (log.record tok peer (.writable fd resp outcome)).Kept := by
      refine ⟨?_, ?_⟩
      · rw [hhandled, haccepted', haccepted]
      · rw [hhandled, hstored, h.kept.2, List.filterMap_append]
        cases haction : storedAction (tok.request object) <;> simp [haction]
    refine ⟨fun peer' status' hentry => ?_, hkept⟩
    rw [peerEntry, hobject.send outcome] at hentry
    cases outcome with
    | failed =>
      obtain ⟨rfl, rfl⟩ : { peer with recvBuf := zeros sendbufSize } = peer' ∧
        fdStatusW = status' := by simpa using hentry
      exact ⟨hkept, fun h => absurd h wantRead_fdStatusW, fun _ => .inl rfl⟩
    | sent count =>
      obtain ⟨rfl, rfl⟩ : onPeerConnected.1 = peer' ∧ fdStatusR = status' := by
        simpa using hentry
      refine ⟨hkept, fun _ => ⟨?_, fun a ha => ?_⟩, fun h => absurd h wantWrite_fdStatusR⟩
      · rw [hhandled, haccepted', haccepted]
      · rw [hserved] at ha
        rcases List.mem_append.mp ha with ha | ha
        · exact hsent a ha
        · obtain rfl := List.mem_singleton.mp ha
          exact SendOutcome.noConfusion

/-- **What every run keeps of its answers.** -/
theorem answers_step (hinv : LocalInv tok (Answers tok) PeerLog.Kept r) (e : ServerEvent) :
    LocalInv tok (Answers tok) PeerLog.Kept (serverRunStep tok r e) := by
  refine hinv.step answers_connected fun fd hfd hoccurs hrunning status hstatus => ?_
  have hanswers := hinv.entry hrunning fd status hstatus
  have hserver := hinv.server hrunning
  cases e with
  | error _ =>
    refine ⟨fun peer' status' hentry => ?_, hanswers.kept⟩
    cases hentry
  | hangup _ =>
    refine ⟨fun peer' status' hentry => ?_, hanswers.kept⟩
    obtain ⟨rfl, rfl⟩ : r.server.globalState fd = peer' ∧ status = status' := by
      simpa [peerEntry] using hentry
    exact ⟨hanswers.kept, hanswers.read, hanswers.write⟩
  | readable fd' outcome =>
    obtain rfl : fd' = fd := Option.some.inj hfd
    simp only [occurs, Bool.and_eq_true, decide_eq_true_eq] at hoccurs
    obtain ⟨hinterest, hpeer⟩ := hserver.peer_of_wantRead hoccurs.1.2
    obtain rfl : fdStatusR = status := Option.some.inj (hinterest.symm.trans hstatus)
    exact hanswers.read_step hpeer hoccurs.2
  | writable fd' resp outcome =>
    obtain rfl : fd' = fd := Option.some.inj hfd
    simp only [occurs, Bool.and_eq_true] at hoccurs
    obtain ⟨hinterest, -⟩ := hserver.peer_of_wantWrite hoccurs.2
    obtain rfl : fdStatusW = status := Option.some.inj (hinterest.symm.trans hstatus)
    exact hanswers.write_step
  | _ => cases hfd

/-- The event makes the server read bytes of the connection. -/
def Reads (r : ServerRun) (e : ServerEvent) (k : ℕ) : Prop :=
  ∃ fd bytes, e = .readable fd (.received bytes) ∧ bytes ≠ [] ∧ occurs r.server e = true ∧
    r.owner fd = k ∧ (r.server.globalState fd).mustWait = false

/-- Every request found in the buffer was answered once: handled, its action stored, and its whole
response sent. -/
structure AnsweredOnce (log : PeerLog) : Prop where
  handled : log.handled = log.accepted
  stored : log.stored = log.accepted.filterMap storedAction
  sent : ∀ a ∈ log.served, a.sent = a.resp

/-- No more than that was done, whether or not the connection is closed. -/
structure AnsweredInPart (log : PeerLog) : Prop where
  handled : log.handled <+: log.accepted
  stored : log.stored <+: log.accepted.filterMap storedAction
  sent : ∀ a ∈ log.served, a.sent <+: a.resp

/-- **The law of the responses.** -/
structure ResponseLaw (r : ServerRun) (e : ServerEvent) : Prop where
  read : ∀ k, Reads r e k → AnsweredOnce (r.log k)
  closed : ∀ k, AnsweredInPart (r.log k)

/-- The server does not read from a connection on which `send` took only a part of a response. -/
def WholeResponses (r : ServerRun) (e : ServerEvent) : Prop :=
  ∀ k, Reads r e k → ∀ a ∈ (r.log k).served, ∀ count, a.outcome = .sent count →
    a.resp.length ≤ (count : ℕ)

/-- What is done for a connection is always part of what its requests ask for. -/
theorem PeerLog.Kept.answeredInPart (h : log.Kept) : AnsweredInPart log := by
  refine ⟨h.1, ?_, fun a _ => List.take_prefix _ _⟩
  obtain ⟨more, hmore⟩ := h.1
  rw [h.2, ← hmore, List.filterMap_append]
  exact List.prefix_append _ _

/-- A connection that is read has failed at no response. -/
theorem answered_of_reads (hinv : LocalInv tok (Answers tok) PeerLog.Kept r) {k : ℕ}
    (h : Reads r e k) : (r.log k).Answered := by
  obtain ⟨fd, bytes, rfl, -, hoccurs, rfl, -⟩ := h
  have hrunning := running_of_occurs hoccurs rfl
  simp only [occurs, Bool.and_eq_true] at hoccurs
  obtain ⟨hinterest, -⟩ := (hinv.server hrunning).peer_of_wantRead hoccurs.1.2
  exact (hinv.entry hrunning fd fdStatusR hinterest).read rfl

/-- **The step of the law of the responses.** -/
theorem responseLaw_iff (hinv : LocalInv tok (Answers tok) PeerLog.Kept r) (e : ServerEvent) :
    ResponseLaw r e ↔ WholeResponses r e := by
  constructor
  · intro hlaw k hreads a ha count hcount
    have hsent := (hlaw.read k hreads).sent a ha
    rw [ServedRequest.sent, hcount, List.take_eq_self_iff] at hsent
    exact hsent
  · intro hwhole
    refine ⟨fun k hreads => ?_, fun k => (hinv.log k).answeredInPart⟩
    have hanswered := answered_of_reads hinv hreads
    refine ⟨hanswered.1.symm, ?_, fun a ha => ?_⟩
    · rw [hanswered.1]
      exact (hinv.log k).2
    · cases houtcome : a.outcome with
      | failed => exact absurd houtcome (hanswered.2 a ha)
      | sent count =>
        rw [ServedRequest.sent, houtcome, List.take_eq_self_iff]
        exact hwhole k hreads a ha count houtcome

/-- **One complete response for each request.** Whatever the peers do and whatever `send` returns,
the law of the responses holds at every event exactly when the server reads nothing from a
connection after `send` took only a part of a response. -/
theorem responseLaw_eachStep_iff (tok : JsonTokener) (globalState : ℕ → PeerState)
    (es : List ServerEvent) :
    EachStep (serverRunStep tok) ResponseLaw (serverRunStart globalState) es ↔
      EachStep (serverRunStep tok) WholeResponses (serverRunStart globalState) es :=
  eachStep_congr (localInv_serverRunStart kept_empty globalState)
    (fun _ e hinv => answers_step hinv e) fun _ e hinv => responseLaw_iff hinv e

/-- A response of three bytes of which `send` takes one, and the next request. -/
def responseCut : List ServerEvent :=
  [.accept (.accepted 5 true), .readable 5 (.received [0x7B, 0x7D]),
    .writable 5 [0x7B, 0x20, 0x7D] (.sent ⟨1, Nat.one_pos⟩), .readable 5 (.received [0x7B, 0x7D])]

/-- The rest of the response is never sent. -/
theorem responseLaw_fails_response_cut :
    ¬ EachStep (serverRunStep jsonObjects) ResponseLaw (serverRunStart fun _ => onPeerConnected.1)
        responseCut := by
  intro h
  have hlaw := h (responseCut.take 3) (.readable 5 (.received [0x7B, 0x7D])) (List.prefix_refl _)
  have hreads : Reads
      (after (serverRunStep jsonObjects) (serverRunStart fun _ => onPeerConnected.1)
        (responseCut.take 3)) (.readable 5 (.received [0x7B, 0x7D])) 0 :=
    ⟨5, [0x7B, 0x7D], rfl, List.cons_ne_nil _ _, by decide +kernel, by decide +kernel,
      by decide +kernel⟩
  have hsent := (hlaw.read 0 hreads).sent
  revert hsent
  decide +kernel

end Oscillatord
